import ShardProxy.Hash.Mixing

/-!
# MD5

The digest is kept as its four 32-bit words; written out least significant byte first, they are
the sixteen bytes of the digest.
-/

namespace ShardProxy.Hash.Md5

/-- The words of a digest, and the chaining value between blocks. -/
structure Digest where
  a : UInt32
  b : UInt32
  c : UInt32
  d : UInt32
  deriving DecidableEq, Repr

def Digest.words (h : Digest) : List UInt32 := [h.a, h.b, h.c, h.d]

/-- The integer parts of `2^32 * |sin (i + 1)|`. -/
def sines : Array UInt32 :=
  #[
    0xd76aa478, 0xe8c7b756, 0x242070db, 0xc1bdceee, 0xf57c0faf, 0x4787c62a,
    0xa8304613, 0xfd469501, 0x698098d8, 0x8b44f7af, 0xffff5bb1, 0x895cd7be,
    0x6b901122, 0xfd987193, 0xa679438e, 0x49b40821, 0xf61e2562, 0xc040b340,
    0x265e5a51, 0xe9b6c7aa, 0xd62f105d, 0x02441453, 0xd8a1e681, 0xe7d3fbc8,
    0x21e1cde6, 0xc33707d6, 0xf4d50d87, 0x455a14ed, 0xa9e3e905, 0xfcefa3f8,
    0x676f02d9, 0x8d2a4c8a, 0xfffa3942, 0x8771f681, 0x6d9d6122, 0xfde5380c,
    0xa4beea44, 0x4bdecfa9, 0xf6bb4b60, 0xbebfbc70, 0x289b7ec6, 0xeaa127fa,
    0xd4ef3085, 0x04881d05, 0xd9d4d039, 0xe6db99e5, 0x1fa27cf8, 0xc4ac5665,
    0xf4292244, 0x432aff97, 0xab9423a7, 0xfc93a039, 0x655b59c3, 0x8f0ccc92,
    0xffeff47d, 0x85845dd1, 0x6fa87e4f, 0xfe2ce6e0, 0xa3014314, 0x4e0811a1,
    0xf7537e82, 0xbd3af235, 0x2ad7d2bb, 0xeb86d391]

def shifts : Array UInt32 := #[7, 12, 17, 22, 5, 9, 14, 20, 4, 11, 16, 23, 6, 10, 15, 21]

/-- The mixing function of step `i` and the index of the message word it takes. -/
def mixing (i : Nat) (h : Digest) : UInt32 × Nat :=
  if i < 16 then ((h.b &&& h.c) ||| (~~~h.b &&& h.d), i)
  else if i < 32 then ((h.d &&& h.b) ||| (~~~h.d &&& h.c), (5 * i + 1) % 16)
  else if i < 48 then (h.b ^^^ h.c ^^^ h.d, (3 * i + 5) % 16)
  else (h.c ^^^ (h.b ||| ~~~h.d), (7 * i) % 16)

def step (m : Array UInt32) (h : Digest) (i : Nat) : Digest :=
  let (f, g) := mixing i h
  let x := f + h.a + sines[i]?.getD 0 + m[g]?.getD 0
  ⟨h.d, h.b + rotateLeft x (shifts[4 * (i / 16) + i % 4]?.getD 0), h.b, h.c⟩

/-- Takes in one block of 64 bytes. -/
def absorb (h : Digest) (block : Bytes) : Digest :=
  let m := ((blocks 3 block).map word).toArray
  let r := (List.range 64).foldl (step m) h
  ⟨h.a + r.a, h.b + r.b, h.c + r.c, h.d + r.d⟩

/-- The message with a one bit, zeros up to a whole block, and its length in bits. -/
def pad (msg : Bytes) : Bytes :=
  let len := msg.length
  let zeros := (119 - len % 64) % 64
  let bits := (List.range 8).map fun i => ((8 * len) >>> (8 * i)).toUInt8
  msg ++ 0x80 :: List.replicate zeros 0 ++ bits

def digest (msg : Bytes) : Digest :=
  (blocks 63 (pad msg)).foldl absorb ⟨0x67452301, 0xefcdab89, 0x98badcfe, 0x10325476⟩

end ShardProxy.Hash.Md5
