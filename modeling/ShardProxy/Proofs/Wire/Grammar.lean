import ShardProxy.Proofs.Wire.Reader

/-!
# The grammar of the wire

The protocol units as a grammar, independent of how they are read, and what the readers of lines
read in its terms:

* `Spells`, `NumberLine`, `BulkUnit`, `ArrayUnit`, `Derives` — the grammar, a rule for each form;
* `reads_scanLine`, `reads_scanNumber` — the lines that text and numbers end with.
-/

namespace ShardProxy.Wire

/-! ## Rules -/

/-- An ASCII digit. -/
def Digit (d : UInt8) : Prop := 48 ≤ d.toNat ∧ d.toNat ≤ 57

instance (d : UInt8) : Decidable (Digit d) :=
  inferInstanceAs (Decidable (48 ≤ d.toNat ∧ d.toNat ≤ 57))

/-- The number that digits stand for, the last one the ones. -/
def decimal (ds : Bytes) : Nat := Nat.ofDigits 10 (ds.reverse.map fun d => d.toNat - 48)

/-- One digit or more after an optional sign. -/
inductive Spells : Bytes → Int → Prop where
  | unsigned {ds} : ds ≠ [] → (∀ d ∈ ds, Digit d) → Spells ds (decimal ds)
  | plus {ds} : ds ≠ [] → (∀ d ∈ ds, Digit d) → Spells (plus :: ds) (decimal ds)
  | minus {ds} : ds ≠ [] → (∀ d ∈ ds, Digit d) → Spells (minus :: ds) (-decimal ds)

/-- A number that fits in 64 bits, and its line end. -/
inductive NumberLine : Bytes → Int64 → Prop where
  | mk {text n} : Spells text n.toInt → NumberLine (text ++ crlf) n

/-- A bulk string: null, or as many bytes of any kind as its length says, at most 512 MiB. -/
inductive BulkUnit : Bytes → Option Bytes → Prop where
  | null {line} : NumberLine line (-1) → BulkUnit (dollar :: line) none
  | data {line n data} : NumberLine line n → n.toInt = data.length →
      data.length ≤ 512 * 1024 * 1024 → BulkUnit (dollar :: line ++ data ++ crlf) (some data)

/-- Bulk strings one after the other. -/
inductive Bulks : Bytes → List (Option Bytes) → Prop where
  | nil : Bulks [] []
  | cons {p q item items} : BulkUnit p item → Bulks q items → Bulks (p ++ q) (item :: items)

/-- An array: null, or as many bulk strings as its length says, at most 1024. -/
inductive ArrayUnit : Bytes → Option (List (Option Bytes)) → Prop where
  | null {line} : NumberLine line (-1) → ArrayUnit (star :: line) none
  | items {line n p items} : NumberLine line n → n.toInt = items.length → items.length ≤ 1024 →
      Bulks p items → ArrayUnit (star :: line ++ p) (some items)

/-- A protocol unit. -/
inductive Derives : Bytes → Value → Prop where
  | status {text} : cr ∉ text → Derives (plus :: text ++ crlf) (.status text)
  | error {text} : cr ∉ text → Derives (minus :: text ++ crlf) (.error text)
  | integer {line n} : NumberLine line n → Derives (colon :: line) (.integer n)
  | bulk {p item} : BulkUnit p item → Derives p (.bulk item)
  | array {p items} : ArrayUnit p items → Derives p (.array (items.map (·.map .bulk)))

/-! ## Lines -/

theorem reads_endOfLine {α : Type} (v : α) :
    Reads (endOfLine v) fun part w => part = [lf] ∧ w = v := by
  have h : endOfLine v = byFirst fun c rest =>
      if c = lf then .done v rest else .malformed .strayCarriageReturn := by
    funext b
    cases b <;> rfl
  rw [h]
  have hbyte : ∀ c, Reads
      (fun rest => if c = lf then Scan.done v rest else .malformed .strayCarriageReturn)
      fun part w => c = lf ∧ part = [] ∧ w = v := by
    intro c
    by_cases hc : c = lf
    · simpa [hc] using Reads.pure v
    · simpa [hc] using Reads.fail (α := α) .strayCarriageReturn
  refine (Reads.byte hbyte).congr fun part w => ?_
  constructor
  · rintro ⟨c, p, ⟨rfl, rfl, rfl⟩, rfl⟩
    exact ⟨rfl, rfl⟩
  · rintro ⟨rfl, rfl⟩
    exact ⟨lf, [], ⟨rfl, rfl, rfl⟩, rfl⟩

theorem scanLine_of_no_cr {b : Bytes} (h : ∀ x ∈ b, (x != cr) = true) :
    scanLine b = .incomplete := by
  simp [scanLine, List.dropWhile_eq_nil_iff.mpr h]

theorem scanLine_append {text : Bytes} (h : ∀ x ∈ text, (x != cr) = true) (rest : Bytes) :
    scanLine (text ++ cr :: rest) = endOfLine text rest := by
  simp [scanLine, List.takeWhile_append_of_pos h, List.dropWhile_append_of_pos h]

theorem reads_scanLine : Reads scanLine fun part text => cr ∉ text ∧ part = text ++ crlf := by
  refine (Reads.span (· != cr) (fun text _ => reads_endOfLine text)
    (fun _ h => scanLine_of_no_cr h) (fun text c rest h hc => ?_)).congr fun part text => ?_
  · obtain rfl : c = cr := by simpa using hc
    exact scanLine_append h rest
  · constructor
    · rintro ⟨xs, c, p, hxs, hc, ⟨rfl, rfl⟩, rfl⟩
      obtain rfl : c = cr := by simpa using hc
      refine ⟨fun hcr => ?_, rfl⟩
      simpa using hxs cr hcr
    · rintro ⟨htext, rfl⟩
      refine ⟨text, cr, [lf], fun x hx => ?_, by simp, ⟨rfl, rfl⟩, rfl⟩
      simp only [bne_iff_ne, ne_eq]
      rintro rfl
      exact htext hx

/-! ## Numbers -/

theorem isDigit_iff (d : UInt8) : isDigit d = true ↔ Digit d := by
  simp [isDigit, Digit, UInt8.le_iff_toNat_le]

theorem ofDigits_eq_decimal (ds : Bytes) : ofDigits ds = decimal ds := by
  simp only [ofDigits, decimal, Nat.ofDigits_eq_foldr, List.map_reverse, List.foldr_reverse,
    List.foldl_map]
  congr 1
  funext n d
  simp only [Nat.cast_id]
  ring

/-- The value of digits after a sign. -/
def signedDecimal (negative : Bool) (ds : Bytes) : Int :=
  if negative then -decimal ds else decimal ds

theorem readInt64_eq (negative : Bool) (ds : Bytes) :
    readInt64 negative ds =
      if ds = [] then none
      else if Int64.minValue.toInt ≤ signedDecimal negative ds ∧
          signedDecimal negative ds ≤ Int64.maxValue.toInt then
        some (Int64.ofInt (signedDecimal negative ds))
      else none := by
  by_cases hds : ds = []
  · simp [readInt64, hds]
  · simp [readInt64, signedDecimal, ofDigits_eq_decimal, hds]

theorem readInt64_eq_some_iff {negative : Bool} {ds : Bytes} {n : Int64} :
    readInt64 negative ds = some n ↔ ds ≠ [] ∧ n.toInt = signedDecimal negative ds := by
  rw [readInt64_eq]
  by_cases hds : ds = []
  · simp [hds]
  · rw [if_neg hds]
    constructor
    · intro h
      split at h
      · rename_i hrange
        obtain rfl := Option.some.inj h
        exact ⟨hds, Int64.toInt_ofInt_of_le hrange.1 (Int.lt_add_one_of_le hrange.2)⟩
      · cases h
    · rintro ⟨_, hn⟩
      rw [← hn, if_pos ⟨n.minValue_le_toInt, n.toInt_le⟩, Int64.ofInt_toInt]

/-- What follows the digits of a number decides about it. -/
def numberEnd (negative : Bool) (ds : Bytes) (c : UInt8) (rest : Bytes) : Scan Int64 :=
  if c != cr then .malformed .invalidNumberCharacter
  else (endOfLine () rest).andThen fun _ rest =>
    match readInt64 negative ds with
    | none => .malformed .invalidNumber
    | some n => .done n rest

theorem reads_numberEnd (negative : Bool) (ds : Bytes) (c : UInt8) :
    Reads (numberEnd negative ds c) fun part n =>
      c = cr ∧ part = [lf] ∧ readInt64 negative ds = some n := by
  unfold numberEnd
  by_cases hc : c = cr
  · -- the number is judged only once its line is complete
    have hvalue : ∀ _ : Unit, Reads
        (fun rest => match readInt64 negative ds with
          | none => .malformed .invalidNumber
          | some n => .done n rest)
        fun part n => part = [] ∧ readInt64 negative ds = some n := by
      intro _
      cases readInt64 negative ds with
      | none => simpa using Reads.fail (α := Int64) .invalidNumber
      | some n => simpa [eq_comm] using Reads.pure n
    simp only [hc, bne_self_eq_false, Bool.false_eq_true, if_false]
    refine ((reads_endOfLine ()).andThen hvalue).congr fun part n => ?_
    constructor
    · rintro ⟨p, _, q, ⟨rfl, _⟩, ⟨rfl, hn⟩, rfl⟩
      exact ⟨trivial, rfl, hn⟩
    · rintro ⟨_, rfl, hn⟩
      exact ⟨[lf], (), [], ⟨rfl, rfl⟩, ⟨rfl, hn⟩, rfl⟩
  · simpa [hc] using Reads.fail (α := Int64) .invalidNumberCharacter

/-- A number after its sign. -/
def scanDigits (negative : Bool) (body : Bytes) : Scan Int64 :=
  match body.dropWhile isDigit with
  | [] => .incomplete
  | c :: rest => numberEnd negative (body.takeWhile isDigit) c rest

theorem scanNumber_eq (b : Bytes) :
    scanNumber b = scanDigits (splitSign b).1 (splitSign b).2 := rfl

theorem scanDigits_of_digits (negative : Bool) {b : Bytes} (h : ∀ x ∈ b, isDigit x = true) :
    scanDigits negative b = .incomplete := by
  simp [scanDigits, List.dropWhile_eq_nil_iff.mpr h]

theorem scanDigits_append (negative : Bool) {ds : Bytes} (h : ∀ x ∈ ds, isDigit x = true)
    {c : UInt8} (hc : isDigit c = false) (rest : Bytes) :
    scanDigits negative (ds ++ c :: rest) = numberEnd negative ds c rest := by
  simp [scanDigits, List.takeWhile_append_of_pos h, List.dropWhile_append_of_pos h, hc]

/-- Digits and their line end, and the number that they stand for after a sign. -/
def DigitsLine (negative : Bool) (part : Bytes) (n : Int64) : Prop :=
  ∃ ds, (∀ d ∈ ds, Digit d) ∧ ds ≠ [] ∧ n.toInt = signedDecimal negative ds ∧ part = ds ++ crlf

theorem digitsLine_of_span {negative : Bool} {part : Bytes} {n : Int64} :
    (∃ xs c p, (∀ x ∈ xs, isDigit x = true) ∧ isDigit c = false ∧
      (c = cr ∧ p = [lf] ∧ readInt64 negative xs = some n) ∧ part = xs ++ c :: p) ↔
    DigitsLine negative part n := by
  simp only [isDigit_iff, readInt64_eq_some_iff]
  constructor
  · rintro ⟨ds, c, p, hds, _, ⟨rfl, rfl, hne, hn⟩, rfl⟩
    exact ⟨ds, hds, hne, hn, rfl⟩
  · rintro ⟨ds, hds, hne, hn, rfl⟩
    exact ⟨ds, cr, [lf], hds, by decide, ⟨rfl, rfl, hne, hn⟩, rfl⟩

theorem reads_scanDigits (negative : Bool) :
    Reads (scanDigits negative) (DigitsLine negative) :=
  (Reads.span isDigit (reads_numberEnd negative) (fun _ h => scanDigits_of_digits negative h)
    fun _ _ rest h hc => scanDigits_append negative h hc rest).congr
    fun _ _ => digitsLine_of_span

theorem not_digit_sign {d : UInt8} (hd : Digit d) : d ≠ minus ∧ d ≠ plus := by
  constructor <;> rintro rfl <;> exact absurd hd (by decide)

/-- A spelling by its sign and its digits. -/
theorem spells_iff {text : Bytes} {v : Int} :
    Spells text v ↔ (splitSign text).2 ≠ [] ∧ (∀ d ∈ (splitSign text).2, Digit d) ∧
      v = signedDecimal (splitSign text).1 (splitSign text).2 := by
  constructor
  · rintro (⟨hne, hds⟩ | ⟨hne, hds⟩ | ⟨hne, hds⟩)
    · -- without a sign there is a digit, which is no sign
      obtain ⟨d, ds, rfl⟩ := List.exists_cons_of_ne_nil hne
      obtain ⟨hm, hpl⟩ := not_digit_sign (hds d List.mem_cons_self)
      have hsplit : splitSign (d :: ds) = (false, d :: ds) := by simp [splitSign, hm, hpl]
      rw [hsplit]
      exact ⟨hne, hds, rfl⟩
    · exact ⟨hne, hds, rfl⟩
    · exact ⟨hne, hds, rfl⟩
  · rintro ⟨hne, hds, rfl⟩
    cases text with
    | nil => exact absurd rfl hne
    | cons c rest =>
        simp only [splitSign] at hne hds ⊢
        split_ifs at hne hds ⊢ with hm hpl
        · exact hm ▸ .minus hne hds
        · exact hpl ▸ .plus hne hds
        · exact .unsigned hne hds

/-- Numbers that fit in 64 bits are read from all their spellings. -/
theorem number?_eq_some_iff {b : Bytes} {n : Int64} : number? b = some n ↔ Spells b n.toInt := by
  have hdigits : ((splitSign b).2.all isDigit) = true ↔ ∀ d ∈ (splitSign b).2, Digit d := by
    simp only [List.all_eq_true, isDigit_iff]
  rw [spells_iff, ← hdigits]
  unfold number?
  dsimp only
  split
  · rename_i hall
    rw [readInt64_eq_some_iff]
    exact and_congr_right fun _ => (and_iff_right hall).symm
  · rename_i hall
    simp [hall]

theorem numberLine_iff {part : Bytes} {n : Int64} :
    NumberLine part n ↔
      DigitsLine false part n ∨
        ∃ p, DigitsLine false p n ∧ part = plus :: p ∨
          DigitsLine true p n ∧ part = minus :: p := by
  constructor
  · rintro ⟨h⟩
    generalize hv : n.toInt = v at h
    cases h with
    | unsigned hne hds => exact .inl ⟨_, hds, hne, hv, rfl⟩
    | plus hne hds => exact .inr ⟨_, .inl ⟨⟨_, hds, hne, hv, rfl⟩, rfl⟩⟩
    | minus hne hds => exact .inr ⟨_, .inr ⟨⟨_, hds, hne, hv, rfl⟩, rfl⟩⟩
  · rintro (⟨ds, hds, hne, hn, rfl⟩ | ⟨_, ⟨⟨ds, hds, hne, hn, rfl⟩, rfl⟩ |
      ⟨⟨ds, hds, hne, hn, rfl⟩, rfl⟩⟩)
    · exact .mk (hn ▸ .unsigned hne hds)
    · have h : Spells (plus :: ds) n.toInt := hn ▸ .plus hne hds
      exact .mk h
    · have h : Spells (minus :: ds) n.toInt := hn ▸ .minus hne hds
      exact .mk h

/-- A number line by its first byte: a sign, or a digit. -/
theorem numberLine_cons_iff {part : Bytes} {n : Int64} :
    (∃ c p, (if c = minus then DigitsLine true p n
      else if c = plus then DigitsLine false p n
      else DigitsLine false (c :: p) n) ∧ part = c :: p) ↔
    NumberLine part n := by
  rw [numberLine_iff]
  constructor
  · rintro ⟨c, p, hp, rfl⟩
    split_ifs at hp with hm hpl
    · exact .inr ⟨p, .inr ⟨hp, by rw [hm]⟩⟩
    · exact .inr ⟨p, .inl ⟨hp, by rw [hpl]⟩⟩
    · exact .inl hp
  · rintro (⟨ds, hds, hne, hn, rfl⟩ | ⟨p, ⟨hp, rfl⟩ | ⟨hp, rfl⟩⟩)
    · -- without a sign there is a digit, which is no sign
      obtain ⟨d, ds', rfl⟩ := List.exists_cons_of_ne_nil hne
      obtain ⟨hm, hpl⟩ := not_digit_sign (hds d List.mem_cons_self)
      exact ⟨d, ds' ++ crlf, by simpa [hm, hpl] using ⟨d :: ds', hds, hne, hn, rfl⟩, rfl⟩
    · exact ⟨plus, p, by simpa [plus, minus] using hp, rfl⟩
    · exact ⟨minus, p, by simpa using hp, rfl⟩

theorem reads_scanNumber : Reads scanNumber NumberLine := by
  have h : scanNumber = byFirst fun c rest =>
      if c = minus then scanDigits true rest
      else if c = plus then scanDigits false rest
      else scanDigits false (c :: rest) := by
    funext b
    cases b with
    | nil => rfl
    | cons c rest =>
        rw [scanNumber_eq]
        simp only [splitSign, byFirst]
        split_ifs <;> rfl
  have hbyte : ∀ c, Reads
      (fun rest =>
        if c = minus then scanDigits true rest
        else if c = plus then scanDigits false rest
        else scanDigits false (c :: rest))
      fun part n =>
        if c = minus then DigitsLine true part n
        else if c = plus then DigitsLine false part n
        else DigitsLine false (c :: part) n := by
    intro c
    split_ifs
    · exact reads_scanDigits true
    · exact reads_scanDigits false
    · -- the byte is the first of the digits, so there is a line only after it
      refine (reads_scanDigits false).afterByte ?_ c
      rintro n ⟨ds, _, _, _, hpart⟩
      simp [crlf] at hpart
  rw [h]
  exact (Reads.byte hbyte).congr fun part n => numberLine_cons_iff

end ShardProxy.Wire
