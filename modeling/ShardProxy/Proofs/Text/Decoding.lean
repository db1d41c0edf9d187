import Mathlib.Data.List.Basic
import ShardProxy.Text.Bytes

/-!
# Texts are read back

A text is written as UTF-8 and read back from its bytes: each character from its lead byte and the
bytes that continue it, which are in the range that the lead byte announces.

* `chars_utf8EncodeChar` — a character is read from its encoding, whatever comes after it;
* `decodeLossy_utf8` — a text is read from its bytes;
* `utf8_decodeLossy` — the bytes that reading leaves as they are;
* `decodeLossy_eq_empty` — the empty text is read from no bytes only.
-/

namespace ShardProxy.Text

/-! ## Lead bytes -/

section Leads

variable {b : UInt8} {v : Nat}

theorem lead?_two (hmin : 0xC2 ≤ b.toNat) (hmax : b.toNat ≤ 0xDF) :
    lead? b = some ⟨1, b.toNat - 0xC0, 0x80, 0xBF⟩ := by
  unfold lead?
  simp only [UInt8.le_iff_toNat_le]
  exact if_pos ⟨hmin, hmax⟩

/-- A character of three bytes is not overlong and no surrogate, so that its second byte is in the
range that the first announces. -/
theorem lead?_three (hlead : b.toNat = v / 4096 + 0xE0) (hmin : 0x800 ≤ v) (hmax : v < 0x10000)
    (hchar : v < 0xD800 ∨ 0xE000 ≤ v) :
    ∃ low high, lead? b = some ⟨2, v / 4096, low, high⟩ ∧
      low.toNat ≤ v / 64 % 64 + 0x80 ∧ v / 64 % 64 + 0x80 ≤ high.toNat := by
  by_cases hfirst : v < 0x1000
  · obtain rfl : b = 0xE0 := UInt8.toNat_inj.mp (show b.toNat = 0xE0 by omega)
    have hbits : v / 4096 = 0 := by omega
    have hlow : (0xA0 : UInt8).toNat = 0xA0 := rfl
    have hhigh : (0xBF : UInt8).toNat = 0xBF := rfl
    exact ⟨0xA0, 0xBF, hbits ▸ rfl, by omega, by omega⟩
  by_cases hlast : 0xD000 ≤ v ∧ v < 0xE000
  · obtain rfl : b = 0xED := UInt8.toNat_inj.mp (show b.toNat = 0xED by omega)
    have hbits : v / 4096 = 13 := by omega
    have hlow : (0x80 : UInt8).toNat = 0x80 := rfl
    have hhigh : (0x9F : UInt8).toNat = 0x9F := rfl
    exact ⟨0x80, 0x9F, hbits ▸ rfl, by omega, by omega⟩
  · have hlow : (0x80 : UInt8).toNat = 0x80 := rfl
    have hhigh : (0xBF : UInt8).toNat = 0xBF := rfl
    refine ⟨0x80, 0xBF, ?_, by omega, by omega⟩
    have hbits : b.toNat - 0xE0 = v / 4096 := by omega
    unfold lead?
    simp only [UInt8.le_iff_toNat_le, ← UInt8.toNat_inj, UInt8.reduceToNat]
    rw [if_neg (by omega), if_neg (by omega), if_neg (by omega), if_pos (by omega), hbits]

/-- A character of four bytes is not overlong and within the range of Unicode. -/
theorem lead?_four (hlead : b.toNat = v / 262144 + 0xF0) (hmin : 0x10000 ≤ v)
    (hmax : v < 0x110000) :
    ∃ low high, lead? b = some ⟨3, v / 262144, low, high⟩ ∧
      low.toNat ≤ v / 4096 % 64 + 0x80 ∧ v / 4096 % 64 + 0x80 ≤ high.toNat := by
  by_cases hfirst : v < 0x40000
  · obtain rfl : b = 0xF0 := UInt8.toNat_inj.mp (show b.toNat = 0xF0 by omega)
    have hbits : v / 262144 = 0 := by omega
    have hlow : (0x90 : UInt8).toNat = 0x90 := rfl
    have hhigh : (0xBF : UInt8).toNat = 0xBF := rfl
    exact ⟨0x90, 0xBF, hbits ▸ rfl, by omega, by omega⟩
  by_cases hlast : 0x100000 ≤ v
  · obtain rfl : b = 0xF4 := UInt8.toNat_inj.mp (show b.toNat = 0xF4 by omega)
    have hbits : v / 262144 = 4 := by omega
    have hlow : (0x80 : UInt8).toNat = 0x80 := rfl
    have hhigh : (0x8F : UInt8).toNat = 0x8F := rfl
    exact ⟨0x80, 0x8F, hbits ▸ rfl, by omega, by omega⟩
  · have hlow : (0x80 : UInt8).toNat = 0x80 := rfl
    have hhigh : (0xBF : UInt8).toNat = 0xBF := rfl
    refine ⟨0x80, 0xBF, ?_, by omega, by omega⟩
    have hbits : b.toNat - 0xF0 = v / 262144 := by omega
    unfold lead?
    simp only [UInt8.le_iff_toNat_le, ← UInt8.toNat_inj, UInt8.reduceToNat]
    rw [if_neg (by omega), if_neg (by omega), if_neg (by omega), if_neg (by omega),
      if_neg (by omega), if_neg (by omega), if_pos (by omega), hbits]

end Leads

/-! ## Continuation bytes -/

theorem toNat_ofNat_of_lt {n : Nat} (h : n < 256) : (UInt8.ofNat n).toNat = n := by
  rw [UInt8.toNat_ofNat', Nat.mod_eq_of_lt h]

/-- A continuation byte adds its six bits. -/
theorem continued_second (acc n more : Nat) {low high : UInt8} (rest : Bytes)
    (hlow : low.toNat ≤ n % 64 + 128) (hhigh : n % 64 + 128 ≤ high.toNat) :
    continued acc low high (more + 1) (UInt8.ofNat (n % 64 + 128) :: rest) =
      continued (acc * 64 + n % 64) 0x80 0xBF more rest := by
  have hbyte : (UInt8.ofNat (n % 64 + 128)).toNat = n % 64 + 128 := toNat_ofNat_of_lt (by omega)
  rw [continued, if_pos, hbyte, Nat.add_sub_cancel_right]
  rw [UInt8.le_iff_toNat_le, UInt8.le_iff_toNat_le, hbyte]
  exact ⟨hlow, hhigh⟩

/-- After the first continuation byte any other may come. -/
theorem continued_later (acc n more : Nat) (rest : Bytes) :
    continued acc 0x80 0xBF (more + 1) (UInt8.ofNat (n % 64 + 128) :: rest) =
      continued (acc * 64 + n % 64) 0x80 0xBF more rest := by
  have hlow : (0x80 : UInt8).toNat = 0x80 := rfl
  have hhigh : (0xBF : UInt8).toNat = 0xBF := rfl
  exact continued_second acc n more rest (by omega) (by omega)

theorem next_of_lead {b : UInt8} {l : Lead} (hb : 0x80 ≤ b.toNat) (hlead : lead? b = some l)
    (rest : Bytes) : next b rest = continued l.bits l.low l.high l.more rest := by
  have hwide : ¬ b < 0x80 := by
    rw [UInt8.lt_iff_toNat_lt]
    exact Nat.not_lt.mpr hb
  rw [next, if_neg hwide, hlead]

/-! ## Characters -/

theorem toNat_val_bounds (c : Char) :
    c.val.toNat < 0xD800 ∨ 0xE000 ≤ c.val.toNat ∧ c.val.toNat < 0x110000 := by
  rcases c.valid with h | ⟨h, h'⟩
  · exact .inl h
  · exact .inr ⟨Nat.succ_le_of_lt h, h'⟩

/-- **A character is read from its encoding**, whatever comes after it. -/
theorem chars_utf8EncodeChar (c : Char) (rest : Bytes) :
    chars (String.utf8EncodeChar c ++ rest) = some c :: chars rest := by
  have hchar := toNat_val_bounds c
  have hback : Char.ofNat c.val.toNat = c := Char.ofNat_toNat c
  unfold String.utf8EncodeChar
  generalize c.val.toNat = v at hchar hback
  dsimp only
  split
  · rename_i hone
    have hbyte : (UInt8.ofNat v).toNat = v := toNat_ofNat_of_lt (by omega)
    have hascii : UInt8.ofNat v < 0x80 := by
      rw [UInt8.lt_iff_toNat_lt, hbyte]
      exact Nat.lt_succ_of_le hone
    rw [List.singleton_append, chars, next, if_pos hascii, hbyte, hback]
  split
  · rename_i htwo
    have hbyte : (UInt8.ofNat (v / 64 % 32 + 192)).toNat = v / 64 + 192 :=
      (toNat_ofNat_of_lt (by omega)).trans (by omega)
    have hlead := lead?_two (b := UInt8.ofNat (v / 64 % 32 + 192)) (by omega) (by omega)
    rw [List.cons_append, List.singleton_append, chars, next_of_lead (by omega) hlead,
      continued_later, continued, hbyte, Nat.add_sub_cancel_right, Nat.div_add_mod', hback]
  split
  · rename_i hthree
    have hbyte : (UInt8.ofNat (v / 4096 % 16 + 224)).toNat = v / 4096 + 224 :=
      (toNat_ofNat_of_lt (by omega)).trans (by omega)
    obtain ⟨low, high, hlead, hlow, hhigh⟩ := lead?_three hbyte (by omega) (by omega) (by omega)
    have hall : (v / 4096 * 64 + v / 64 % 64) * 64 + v % 64 = v := by omega
    rw [List.cons_append, List.cons_append, List.singleton_append, chars,
      next_of_lead (by omega) hlead, continued_second _ _ _ _ hlow hhigh, continued_later,
      continued, hall, hback]
  · have hbyte : (UInt8.ofNat (v / 262144 % 8 + 240)).toNat = v / 262144 + 240 :=
      (toNat_ofNat_of_lt (by omega)).trans (by omega)
    obtain ⟨low, high, hlead, hlow, hhigh⟩ := lead?_four hbyte (by omega) (by omega)
    have hall : ((v / 262144 * 64 + v / 4096 % 64) * 64 + v / 64 % 64) * 64 + v % 64 = v := by
      omega
    rw [List.cons_append, List.cons_append, List.cons_append, List.singleton_append, chars,
      next_of_lead (by omega) hlead, continued_second _ _ _ _ hlow hhigh, continued_later,
      continued_later, continued, hall, hback]

/-! ## Texts -/

theorem chars_flatMap (cs : List Char) :
    chars (cs.flatMap String.utf8EncodeChar) = cs.map some := by
  induction cs with
  | nil => rw [List.flatMap_nil, chars, List.map_nil]
  | cons c cs ih => rw [List.flatMap_cons, chars_utf8EncodeChar, ih, List.map_cons]

/-- **A text is read from its bytes.** -/
@[simp] theorem decodeLossy_utf8 (s : String) : decodeLossy (utf8 s) = s := by
  unfold decodeLossy utf8
  rw [chars_flatMap, List.map_map]
  have hself : ((fun c : Option Char => c.getD (Char.ofNat 0xFFFD)) ∘ some) = id := rfl
  rw [hself, List.map_id, String.ofList_toList]

/-- Bytes that encode a text are read as that text, and no others are written again as they were. -/
theorem utf8_decodeLossy {bs : Bytes} : utf8 (decodeLossy bs) = bs ↔ ∃ s, utf8 s = bs := by
  constructor
  · exact fun h => ⟨_, h⟩
  · rintro ⟨s, rfl⟩
    rw [decodeLossy_utf8]

theorem decodeLossy_eq_empty {bs : Bytes} : decodeLossy bs = "" ↔ bs = [] := by
  constructor
  · intro h
    cases bs with
    | nil => rfl
    | cons b rest =>
        have hlist := congrArg String.toList h
        unfold decodeLossy at hlist
        rw [chars, String.toList_ofList] at hlist
        cases hlist
  · rintro rfl
    unfold decodeLossy
    rw [chars]
    rfl

end ShardProxy.Text
