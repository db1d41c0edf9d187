import Mathlib.Data.List.Basic
import ShardProxy.Net.Address
import ShardProxy.Text.Bytes
import ShardProxy.Text.Display
import ShardProxy.Wire.Value

/-!
# Text without a carriage return

Text is one line of the wire if no carriage return is in it. A text is written as UTF-8, where the
byte of the carriage return stands for nothing else; and bytes that are read as text give a carriage
return for each such byte and for nothing else, whatever is ill formed about them.

* `Unbroken` — no carriage return is in the text; its simp lemmas take a text apart;
* `unbroken_renderAddress` — none is in an address;
* `not_mem_utf8` — the same of the bytes of the text;
* `unbroken_decodeLossy` — the same of bytes that are read as text.
-/

namespace ShardProxy.Text

open Wire (cr)

def Unbroken (s : String) : Prop := '\r' ∉ s.toList

instance (s : String) : Decidable (Unbroken s) := inferInstanceAs (Decidable ('\r' ∉ s.toList))

/-! ## Texts -/

@[simp] theorem unbroken_append (s t : String) : Unbroken (s ++ t) ↔ Unbroken s ∧ Unbroken t := by
  unfold Unbroken
  rw [String.toList_append, List.mem_append, not_or]

@[simp] theorem unbroken_join (ts : List String) :
    Unbroken (String.join ts) ↔ ∀ t ∈ ts, Unbroken t := by
  unfold Unbroken
  rw [String.toList_join, List.mem_flatMap]
  constructor
  · intro h t ht hcr
    exact h ⟨t, ht, hcr⟩
  · rintro h ⟨t, ht, hcr⟩
    exact h t ht hcr

theorem unbroken_intercalate {sep : String} (hsep : Unbroken sep) (ts : List String) :
    Unbroken (sep.intercalate ts) ↔ ∀ t ∈ ts, Unbroken t := by
  induction ts with
  | nil => simp [Unbroken]
  | cons t ts ih =>
      cases ts with
      | nil => simp [String.intercalate_singleton]
      | cons u ts =>
          rw [String.intercalate_cons_cons, unbroken_append, unbroken_append, ih,
            List.forall_mem_cons (a := t)]
          exact ⟨fun h => ⟨h.1.1, h.2⟩, fun h => ⟨⟨h.1, hsep⟩, h.2⟩⟩

/-- Digits are no line ends. -/
theorem unbroken_toDigits {b : Nat} (hb : 1 < b) (hsmall : b ≤ 16) (n : Nat) :
    Unbroken (String.ofList (Nat.toDigits b n)) := by
  have hdigit : ∀ d < 16, Nat.digitChar d ≠ '\r' := by decide
  unfold Unbroken
  rw [String.toList_ofList]
  induction n using Nat.strongRecOn with
  | ind n ih =>
      rw [Nat.toDigits_eq_if hb]
      split
      · intro hcr
        exact hdigit n (by omega) (List.mem_singleton.mp hcr).symm
      · rename_i hlarge
        rw [List.mem_append, List.mem_singleton, not_or]
        have hlast : n % b < b := Nat.mod_lt n (by omega)
        exact ⟨ih _ (Nat.div_lt_self (by omega) hb), fun hcr => hdigit _ (by omega) hcr.symm⟩

@[simp] theorem unbroken_repr (n : Nat) : Unbroken n.repr := by
  rw [Nat.repr_eq_ofList_toDigits]
  exact unbroken_toDigits (by decide) (by decide) n

@[simp] theorem unbroken_padRight (width : Nat) (s : String) :
    Unbroken (padRight width s) ↔ Unbroken s := by
  have hblank : Unbroken (String.ofList (List.replicate (width - s.length) ' ')) := by
    unfold Unbroken
    rw [String.toList_ofList]
    intro hcr
    exact absurd (List.eq_of_mem_replicate hcr) (by decide)
  unfold padRight
  rw [unbroken_append]
  exact ⟨And.left, fun h => ⟨h, hblank⟩⟩

@[simp] theorem unbroken_row (cells : List (Nat × String)) :
    Unbroken (row cells) ↔ ∀ cell ∈ cells, Unbroken cell.2 := by
  unfold row
  rw [unbroken_intercalate (by decide), List.forall_mem_map]
  simp only [unbroken_padRight]

/-! ## Addresses -/

theorem unbroken_renderGroups (groups : List UInt16) : Unbroken (Net.Ip.renderGroups groups) := by
  unfold Net.Ip.renderGroups
  rw [unbroken_intercalate (by decide), List.forall_mem_map]
  exact fun g _ => unbroken_toDigits (by decide) (by decide) g.toNat

theorem unbroken_renderOctets (octets : List UInt8) : Unbroken (Net.Ip.renderOctets octets) := by
  unfold Net.Ip.renderOctets
  rw [unbroken_intercalate (by decide), List.forall_mem_map]
  exact fun o _ => unbroken_repr o.toNat

theorem unbroken_renderIp (ip : Net.Ip) : Unbroken ip.render := by
  unfold Net.Ip.render
  cases ip with
  | v4 octets => exact unbroken_renderOctets octets
  | v6 groups =>
      dsimp only
      split
      · simp +decide [unbroken_renderOctets]
      split
      · simp +decide [unbroken_renderGroups]
      · exact unbroken_renderGroups groups

theorem unbroken_renderAddress (a : Net.Address) : Unbroken a.render := by
  unfold Net.Address.render
  dsimp only
  split
  · split
    · simp +decide [unbroken_renderIp]
    · simp +decide [unbroken_renderIp]
  · simp +decide [unbroken_renderIp]

/-! ## Bytes -/

/-- Only the carriage return is encoded with its byte. -/
theorem mem_utf8EncodeChar (c : Char) : cr ∈ String.utf8EncodeChar c ↔ c = '\r' := by
  have hbyte : ∀ n, n % 256 ≠ 13 → cr ≠ UInt8.ofNat n := by
    intro n hn heq
    have hnat := congrArg UInt8.toNat heq
    rw [UInt8.toNat_ofNat'] at hnat
    exact hn hnat.symm
  have hchar : c = '\r' ↔ c.val.toNat = 13 := by
    rw [← Char.val_inj, ← UInt32.toNat_inj]
    rfl
  rw [hchar]
  unfold String.utf8EncodeChar
  dsimp only
  split
  · rename_i hascii
    rw [List.mem_singleton]
    constructor
    · intro heq
      by_contra hne
      exact hbyte _ (by omega) heq
    · intro heq
      rw [heq]
      rfl
  · -- every byte of a longer encoding has its highest bit set
    have hlong : ¬ c.val.toNat = 13 := by omega
    refine iff_of_false (fun hmem => ?_) hlong
    split at hmem
    · simp only [List.mem_cons, List.not_mem_nil, or_false] at hmem
      rcases hmem with h | h
      · exact hbyte _ (by omega) h
      · exact hbyte _ (by omega) h
    · split at hmem
      · simp only [List.mem_cons, List.not_mem_nil, or_false] at hmem
        rcases hmem with h | h | h
        · exact hbyte _ (by omega) h
        · exact hbyte _ (by omega) h
        · exact hbyte _ (by omega) h
      · simp only [List.mem_cons, List.not_mem_nil, or_false] at hmem
        rcases hmem with h | h | h | h
        · exact hbyte _ (by omega) h
        · exact hbyte _ (by omega) h
        · exact hbyte _ (by omega) h
        · exact hbyte _ (by omega) h

theorem not_mem_utf8 (s : String) : cr ∉ utf8 s ↔ Unbroken s := by
  unfold utf8 Unbroken
  rw [List.mem_flatMap]
  constructor
  · intro h hcr
    exact h ⟨'\r', hcr, (mem_utf8EncodeChar _).mpr rfl⟩
  · rintro h ⟨c, hc, hbyte⟩
    rw [(mem_utf8EncodeChar c).mp hbyte] at hc
    exact h hc

/-! ## Bytes that are read as text -/

theorem ofNat_eq_cr (n : Nat) : Char.ofNat n = '\r' ↔ n = 13 := by
  constructor
  · intro h
    have hval : (Char.ofNat n).toNat = 13 := congrArg Char.toNat h
    by_cases hvalid : n.isValidChar
    · have hchar : Char.ofNat n = Char.ofNatAux n hvalid := dif_pos hvalid
      rw [hchar] at hval
      exact hval
    · have hnull : Char.ofNat n = '\x00' := dif_neg hvalid
      rw [hnull] at hval
      cases hval
  · rintro rfl
    rfl

/-- What a lead byte announces is no ASCII character, and goes on with no ASCII byte. -/
theorem lead_bounds {b : UInt8} {l : Lead} (h : lead? b = some l) :
    0 < l.more ∧ 128 ≤ l.low.toNat ∧ 14 ≤ l.bits * 64 + (l.low.toNat - 128) := by
  unfold lead? at h
  simp only [UInt8.le_iff_toNat_le] at h
  split at h
  · rename_i hrange
    cases h
    have hlow : 0xC2 ≤ b.toNat := hrange.1
    refine ⟨Nat.one_pos, Nat.le_refl _, ?_⟩
    show 14 ≤ (b.toNat - 0xC0) * 64 + (128 - 128)
    omega
  split at h
  · cases h
    decide
  split at h
  · cases h
    decide
  split at h
  · rename_i hrange
    cases h
    have hlow : 0xE1 ≤ b.toNat := hrange.1
    refine ⟨Nat.two_pos, Nat.le_refl _, ?_⟩
    show 14 ≤ (b.toNat - 0xE0) * 64 + (128 - 128)
    omega
  split at h
  · cases h
    decide
  split at h
  · cases h
    decide
  split at h
  · rename_i hrange
    cases h
    have hlow : 0xF1 ≤ b.toNat := hrange.1
    refine ⟨Nat.succ_pos _, Nat.le_refl _, ?_⟩
    show 14 ≤ (b.toNat - 0xF0) * 64 + (128 - 128)
    omega
  · cases h

/-- Beyond the control characters there is no way back to them. -/
theorem continued_ne_cr {acc : Nat} (hacc : 14 ≤ acc) (low high : UInt8) (n : Nat) (rest : Bytes) :
    (continued acc low high n rest).1 ≠ some '\r' := by
  induction n generalizing acc low high rest with
  | zero =>
      intro h
      have hcr := (ofNat_eq_cr acc).mp (Option.some.inj h)
      omega
  | succ n ih =>
      cases rest with
      | nil => exact fun h => by cases h
      | cons b rest =>
          rw [continued]
          split
          · exact ih (by omega) _ _ _
          · exact fun h => by cases h

/-- The bytes that continue a character are no ASCII bytes. -/
theorem mem_rest_continued {low : UInt8} (hlow : 128 ≤ low.toNat) (acc : Nat) (high : UInt8)
    (n : Nat) (rest : Bytes) : cr ∈ (continued acc low high n rest).2 ↔ cr ∈ rest := by
  induction n generalizing acc low high rest with
  | zero => exact Iff.rfl
  | succ n ih =>
      cases rest with
      | nil => exact Iff.rfl
      | cons b rest =>
          rw [continued]
          split
          · rename_i hrange
            have hb : cr ≠ b := by
              rintro rfl
              have hle := UInt8.le_iff_toNat_le.mp hrange.1
              have hcr : cr.toNat = 13 := rfl
              omega
            rw [ih (by decide), List.mem_cons]
            exact ⟨Or.inr, fun h => h.resolve_left hb⟩
          · exact Iff.rfl

/-- One character is read from each carriage return, and it is no other byte's. -/
theorem next_cr (b : UInt8) (rest : Bytes) :
    ((next b rest).1 = some '\r' ∨ cr ∈ (next b rest).2) ↔ cr ∈ b :: rest := by
  rw [List.mem_cons]
  by_cases hascii : b < 0x80
  · have hnext : next b rest = (some (Char.ofNat b.toNat), rest) := if_pos hascii
    have hchar : some (Char.ofNat b.toNat) = some '\r' ↔ cr = b := by
      rw [Option.some.injEq, ofNat_eq_cr, ← UInt8.toNat_inj]
      exact eq_comm
    rw [hnext, hchar]
  · have hb : cr ≠ b := by
      rintro rfl
      exact hascii (by decide)
    have hrest : (cr = b ∨ cr ∈ rest) ↔ cr ∈ rest := ⟨fun h => h.resolve_left hb, .inr⟩
    rw [hrest]
    cases hlead : lead? b with
    | none =>
        have hnext : next b rest = (none, rest) := by
          rw [next, if_neg hascii, hlead]
        rw [hnext]
        exact ⟨fun h => h.resolve_left (fun h => by cases h), .inr⟩
    | some l =>
        have hnext : next b rest = continued l.bits l.low l.high l.more rest := by
          rw [next, if_neg hascii, hlead]
        obtain ⟨hmore, hlow, hacc⟩ := lead_bounds hlead
        rw [hnext, mem_rest_continued hlow]
        refine ⟨fun h => h.resolve_left ?_, .inr⟩
        -- one more byte takes the character beyond the control characters
        obtain ⟨n, hn⟩ := Nat.exists_eq_succ_of_ne_zero (Nat.ne_of_gt hmore)
        rw [hn]
        cases rest with
        | nil => exact fun h => by cases h
        | cons c rest =>
            rw [Nat.succ_eq_add_one, continued]
            split
            · rename_i hrange
              have hc := UInt8.le_iff_toNat_le.mp hrange.1
              exact continued_ne_cr (by omega) _ _ _ _
            · exact fun h => by cases h

theorem mem_chars_cr (bs : Bytes) : some '\r' ∈ chars bs ↔ cr ∈ bs := by
  induction bs using chars.induct with
  | case1 =>
      rw [chars]
      exact ⟨fun h => absurd h List.not_mem_nil, fun h => absurd h List.not_mem_nil⟩
  | case2 b rest ih =>
      rw [chars, List.mem_cons, ih, eq_comm (a := some '\r'), next_cr]

/-- Bytes are read as text without a carriage return if they are without one. -/
@[simp] theorem unbroken_decodeLossy (bs : Bytes) : Unbroken (decodeLossy bs) ↔ cr ∉ bs := by
  unfold Unbroken decodeLossy
  rw [String.toList_ofList, ← mem_chars_cr, List.mem_map]
  refine not_congr ⟨?_, fun h => ⟨_, h, rfl⟩⟩
  rintro ⟨c, hc, hcr⟩
  cases c with
  | none => exact absurd hcr (by decide)
  | some c =>
      rw [← show c = '\r' from hcr]
      exact hc

end ShardProxy.Text
