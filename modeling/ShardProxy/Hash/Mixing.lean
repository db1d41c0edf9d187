import ShardProxy.Text.Bytes

/-!
# Hashes that mix words

Most hash functions read keys in little-endian words of 32 bits.

* `Murmur` — a multiply-and-shift hash over words, seeded with 131;
* `Hsieh` — a hash that mixes half-words with shifts and additions only;
* `Jenkins` — a hash with three words of state that takes in twelve bytes at a time. The last one to
  twelve bytes are taken in by `finish`; an empty key is the initial state.
-/

namespace ShardProxy.Hash

/-- The little-endian word of some bytes; bytes past the fourth are shifted out. -/
def word (bs : Bytes) : UInt32 := bs.foldr (fun b w => (w <<< 8) + b.toUInt32) 0

def rotateLeft (x : UInt32) (n : UInt32) : UInt32 := (x <<< n) ||| (x >>> (32 - n))

/-- A byte string in blocks of `n + 1` bytes; the last block may be shorter. -/
def blocks (n : Nat) : Bytes → List Bytes
  | [] => []
  | b :: bs => (b :: bs.take n) :: blocks n (bs.drop n)
termination_by bs => bs.length
decreasing_by simp only [List.length_cons, List.length_drop]; omega

namespace Murmur

def multiplier : UInt32 := 0x5bd1e995
def seed : UInt32 := 131

def scramble (k : UInt32) : UInt32 :=
  let k := k * multiplier
  (k ^^^ (k >>> 24)) * multiplier

/-- A whole word is scrambled; a shorter tail is mixed in as it is. -/
def absorb (h : UInt32) (block : Bytes) : UInt32 :=
  if block.length = 4 then (h * multiplier) ^^^ scramble (word block)
  else (h ^^^ word block) * multiplier

def hash (key : Bytes) : UInt32 :=
  let h := (blocks 3 key).foldl absorb (seed ^^^ key.length.toUInt32)
  let h := (h ^^^ (h >>> 13)) * multiplier
  h ^^^ (h >>> 15)

end Murmur

namespace Hsieh

/-- A word, or the one to three bytes that end the key. -/
def absorb (h : UInt32) : Bytes → UInt32
  | [a, b, c, d] =>
    let h := h + word [a, b]
    let h := (h <<< 16) ^^^ ((word [c, d] <<< 11) ^^^ h)
    h + (h >>> 11)
  | [a, b, c] =>
    let h := h + word [a, b]
    let h := h ^^^ (h <<< 16)
    let h := h ^^^ (c.toUInt32 <<< 18)
    h + (h >>> 11)
  | [a, b] =>
    let h := h + word [a, b]
    let h := h ^^^ (h <<< 11)
    h + (h >>> 17)
  | [a] =>
    let h := h + a.toUInt32
    let h := h ^^^ (h <<< 10)
    h + (h >>> 1)
  | _ => h

def finish (h : UInt32) : UInt32 :=
  let h := h ^^^ (h <<< 3)
  let h := h + (h >>> 5)
  let h := h ^^^ (h <<< 4)
  let h := h + (h >>> 17)
  let h := h ^^^ (h <<< 25)
  h + (h >>> 6)

def hash (key : Bytes) : UInt32 := finish ((blocks 3 key).foldl absorb 0)

end Hsieh

namespace Jenkins

structure State where
  a : UInt32
  b : UInt32
  c : UInt32

/-- Adds up to twelve bytes to the state. -/
def State.add (s : State) (block : Bytes) : State :=
  ⟨s.a + word (block.take 4), s.b + word ((block.drop 4).take 4), s.c + word (block.drop 8)⟩

def State.mix : State → State
  | ⟨a, b, c⟩ =>
    let a := (a - c) ^^^ rotateLeft c 4
    let c := c + b
    let b := (b - a) ^^^ rotateLeft a 6
    let a := a + c
    let c := (c - b) ^^^ rotateLeft b 8
    let b := b + a
    let a := (a - c) ^^^ rotateLeft c 16
    let c := c + b
    let b := (b - a) ^^^ rotateLeft a 19
    let a := a + c
    let c := (c - b) ^^^ rotateLeft b 4
    let b := b + a
    ⟨a, b, c⟩

def State.finish : State → State
  | ⟨a, b, c⟩ =>
    let c := (c ^^^ b) - rotateLeft b 14
    let a := (a ^^^ c) - rotateLeft c 11
    let b := (b ^^^ a) - rotateLeft a 25
    let c := (c ^^^ b) - rotateLeft b 16
    let a := (a ^^^ c) - rotateLeft c 4
    let b := (b ^^^ a) - rotateLeft a 14
    let c := (c ^^^ b) - rotateLeft b 24
    ⟨a, b, c⟩

def absorb (s : State) : List Bytes → State
  | [] => s
  | [last] => (s.add last).finish
  | block :: rest => absorb (s.add block).mix rest

def hash (key : Bytes) : UInt32 :=
  let init : UInt32 := 0xdeadbeef + key.length.toUInt32 + 13
  (absorb ⟨init, init, init⟩ (blocks 11 key)).c

end Jenkins

end ShardProxy.Hash
