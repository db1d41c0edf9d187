/-!
# Byte strings

Keys, requests and replies are byte strings of any content. Names and messages are text; they
meet the bytes through UTF-8:

* `utf8` — the bytes of a text;
* `decodeLossy` — the text of some bytes, where each maximal ill-formed part becomes U+FFFD;
* `decode?` — the text of some bytes, if they are well formed.
-/

namespace ShardProxy

/-- A byte string. -/
abbrev Bytes := List UInt8

namespace Text

/-- The UTF-8 bytes of a text. -/
def utf8 (s : String) : Bytes := s.toList.flatMap String.utf8EncodeChar

/-- What a lead byte announces: the number of continuation bytes, the bits it contributes, and
the range of its first continuation byte, which excludes overlong forms and surrogates. -/
structure Lead where
  more : Nat
  bits : Nat
  low : UInt8
  high : UInt8

def lead? (b : UInt8) : Option Lead :=
  if 0xC2 ≤ b ∧ b ≤ 0xDF then some ⟨1, b.toNat - 0xC0, 0x80, 0xBF⟩
  else if b = 0xE0 then some ⟨2, 0, 0xA0, 0xBF⟩
  else if b = 0xED then some ⟨2, 13, 0x80, 0x9F⟩
  else if 0xE1 ≤ b ∧ b ≤ 0xEF then some ⟨2, b.toNat - 0xE0, 0x80, 0xBF⟩
  else if b = 0xF0 then some ⟨3, 0, 0x90, 0xBF⟩
  else if b = 0xF4 then some ⟨3, 4, 0x80, 0x8F⟩
  else if 0xF1 ≤ b ∧ b ≤ 0xF3 then some ⟨3, b.toNat - 0xF0, 0x80, 0xBF⟩
  else none

/-- The continuation bytes of one character: the character, or nothing if they break off, and
what is left to read. A byte that does not continue the character is left in the rest. -/
def continued (acc : Nat) (low high : UInt8) : Nat → Bytes → Option Char × Bytes
  | 0, rest => (some (Char.ofNat acc), rest)
  | _ + 1, [] => (none, [])
  | n + 1, b :: rest =>
    if low ≤ b ∧ b ≤ high then continued (acc * 64 + (b.toNat - 0x80)) 0x80 0xBF n rest
    else (none, b :: rest)

/-- Reads one character, or one maximal ill-formed part. -/
def next : UInt8 → Bytes → Option Char × Bytes
  | b, rest =>
    if b < 0x80 then (some (Char.ofNat b.toNat), rest)
    else match lead? b with
      | none => (none, rest)
      | some l => continued l.bits l.low l.high l.more rest

theorem length_continued_le (acc : Nat) (low high : UInt8) (n : Nat) (rest : Bytes) :
    (continued acc low high n rest).2.length ≤ rest.length := by
  induction n generalizing acc low high rest with
  | zero => simp [continued]
  | succ n ih =>
    cases rest with
    | nil => simp [continued]
    | cons b rest =>
      rw [continued]
      split
      · exact Nat.le_succ_of_le (ih ..)
      · simp

theorem length_next_le (b : UInt8) (rest : Bytes) : (next b rest).2.length ≤ rest.length := by
  cases h : lead? b with
  | none =>
    simp only [next, h]
    split <;> exact Nat.le_refl _
  | some l =>
    simp only [next, h]
    split
    · exact Nat.le_refl _
    · exact length_continued_le ..

/-- The characters of some bytes; `none` stands for a maximal ill-formed part. -/
def chars : Bytes → List (Option Char)
  | [] => []
  | b :: rest => (next b rest).1 :: chars (next b rest).2
termination_by bs => bs.length
decreasing_by exact Nat.lt_succ_of_le (length_next_le b rest)

/-- Ill-formed parts are read as the replacement character. -/
def decodeLossy (bs : Bytes) : String :=
  String.ofList ((chars bs).map (·.getD (Char.ofNat 0xFFFD)))

/-- The text of well-formed bytes. -/
def decode? (bs : Bytes) : Option String :=
  ((chars bs).mapM id).map String.ofList

end Text

end ShardProxy
