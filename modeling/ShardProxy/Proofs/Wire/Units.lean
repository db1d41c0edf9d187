import ShardProxy.Proofs.Wire.Grammar

/-!
# Protocol units

A unit is read exactly where the grammar derives one:

* `reads_sized` — what a length announces, for bulk strings and arrays alike;
* `reads_scanBulk`, `reads_scanBulks`, `reads_scanArray` — one specification for each reader;
* `scan_done_iff`, `scan_malformed` — the same for a whole unit.
-/

namespace ShardProxy.Wire

/-! ## Bulk strings and arrays -/

/-- Some bytes and the line end after them. -/
def scanData (len : Nat) (b : Bytes) : Scan Bytes :=
  match b.drop len with
  | c :: l :: rest =>
    if c = cr ∧ l = lf then .done (b.take len) rest else .malformed .bulkNotTerminated
  | _ => .incomplete

theorem scanData_append (data : Bytes) (c l : UInt8) (rest : Bytes) :
    scanData data.length (data ++ c :: l :: rest) =
      if c = cr ∧ l = lf then .done data rest else .malformed .bulkNotTerminated := by
  simp [scanData]

/-- Either the data and two more bytes are there, or more bytes are needed. -/
theorem scanData_cases (len : Nat) (b : Bytes) :
    scanData len b = .incomplete ∨
      ∃ data c l rest, b = data ++ c :: l :: rest ∧ data.length = len := by
  rcases h : b.drop len with _ | ⟨c, _ | ⟨l, rest⟩⟩
  · exact .inl (by simp [scanData, h])
  · exact .inl (by simp [scanData, h])
  · refine .inr ⟨b.take len, c, l, rest, ?_, ?_⟩
    · rw [← h, List.take_append_drop]
    · have hlen := congrArg List.length h
      simp only [List.length_drop, List.length_cons] at hlen
      rw [List.length_take]
      omega

theorem reads_scanData (len : Nat) :
    Reads (scanData len) fun part data => data.length = len ∧ part = data ++ crlf where
  done_iff := by
    intro b v rest
    constructor
    · intro h
      rcases scanData_cases len b with hb | ⟨data, c, l, after, rfl, rfl⟩
      · rw [hb] at h
        cases h
      · rw [scanData_append] at h
        split at h
        · rename_i hcl
          obtain ⟨rfl, rfl⟩ := hcl
          simp only [Scan.done.injEq] at h
          obtain ⟨rfl, rfl⟩ := h
          exact ⟨data ++ crlf, ⟨rfl, rfl⟩, by simp [crlf]⟩
        · cases h
    · rintro ⟨part, ⟨rfl, rfl⟩, rfl⟩
      have h := scanData_append v cr lf rest
      simpa [crlf] using h
  malformed := by
    intro b why h s
    rcases scanData_cases len b with hb | ⟨data, c, l, after, rfl, rfl⟩
    · rw [hb] at h
      cases h
    · rw [scanData_append] at h
      rw [List.append_assoc, List.cons_append, List.cons_append, scanData_append]
      split at h
      · cases h
      · rw [if_neg ‹_›]
        exact h

/-- What a length announces: nothing at all, or a body of that length, within a limit. -/
def sized {α : Type} (limit : Nat) (negative tooLarge : Defect) (body : Nat → Bytes → Scan α)
    (n : Int64) (b : Bytes) : Scan (Option α) :=
  if n = -1 then .done none b
  else if n < 0 then .malformed negative
  else if limit < n.toInt.toNat then .malformed tooLarge
  else (body n.toInt.toNat b).map some

/-- The bodies that lengths up to a limit announce. -/
def Sized {α : Type} (limit : Nat) (B : Nat → Bytes → α → Prop) (n : Int64) (part : Bytes)
    (v : Option α) : Prop :=
  n = -1 ∧ part = [] ∧ v = none ∨
    ∃ len : Nat, ∃ w, n.toInt = (len : Int) ∧ len ≤ limit ∧ B len part w ∧ v = some w

theorem not_neg_iff (n : Int64) : ¬ n < 0 ↔ ∃ len : Nat, n.toInt = (len : Int) := by
  rw [Int64.lt_iff_toInt_lt, Int64.toInt_zero]
  constructor
  · intro h
    exact ⟨n.toInt.toNat, (Int.toNat_of_nonneg (by omega)).symm⟩
  · rintro ⟨len, hlen⟩
    omega

theorem reads_sized {α : Type} {limit : Nat} {negative tooLarge : Defect}
    {body : Nat → Bytes → Scan α} {B : Nat → Bytes → α → Prop}
    (hbody : ∀ len, Reads (body len) (B len)) (n : Int64) :
    Reads (sized limit negative tooLarge body n) (Sized limit B n) := by
  unfold sized
  split
  · rename_i hnull
    subst hnull
    refine (Reads.pure none).congr fun part v => ?_
    constructor
    · rintro ⟨rfl, rfl⟩
      exact .inl ⟨rfl, rfl, rfl⟩
    · rintro (⟨_, rfl, rfl⟩ | ⟨len, w, hlen, _⟩)
      · exact ⟨rfl, rfl⟩
      · exact absurd ((not_neg_iff (-1)).mpr ⟨len, hlen⟩) (by decide)
  · rename_i hnull
    split
    · -- a length below -1
      rename_i hneg
      refine (Reads.fail negative).congr fun part v => ⟨False.elim, ?_⟩
      rintro (⟨hn, _⟩ | ⟨len, w, hlen, _⟩)
      · exact hnull hn
      · exact (not_neg_iff n).mpr ⟨len, hlen⟩ hneg
    · rename_i hneg
      obtain ⟨len, hlen⟩ := (not_neg_iff n).mp hneg
      simp only [hlen, Int.toNat_natCast]
      split
      · -- refused before a byte of the body is read
        rename_i hlarge
        refine (Reads.fail tooLarge).congr fun part v => ⟨False.elim, ?_⟩
        rintro (⟨hn, _⟩ | ⟨len', w, hlen', hle, _⟩)
        · exact hnull hn
        · omega
      · rename_i hlarge
        refine ((hbody len).map some).congr fun part v => ?_
        constructor
        · rintro ⟨w, hw, rfl⟩
          exact .inr ⟨len, w, hlen, by omega, hw, rfl⟩
        · rintro (⟨hn, _⟩ | ⟨len', w, hlen', _, hw, rfl⟩)
          · exact absurd hn hnull
          · obtain rfl : len' = len := by omega
            exact ⟨w, hw, rfl⟩

theorem scanBulk_eq (b : Bytes) :
    scanBulk b =
      (scanNumber b).andThen (sized maxBulk .negativeBulkLength .bulkTooLarge scanData) := by
  unfold scanBulk
  congr 1
  funext n rest
  simp only [sized, scanData]
  split_ifs
  · rfl
  · rfl
  · rfl
  · rcases rest.drop n.toInt.toNat with _ | ⟨c, _ | ⟨l, after⟩⟩
    · rfl
    · rfl
    · by_cases hcl : c = cr ∧ l = lf
      · simp only [if_pos hcl, Scan.map, Scan.andThen]
      · simp only [if_neg hcl, Scan.map, Scan.andThen]

theorem reads_scanBulk : Reads scanBulk fun part item => BulkUnit (dollar :: part) item := by
  rw [funext scanBulk_eq]
  refine (reads_scanNumber.andThen (reads_sized reads_scanData)).congr fun part item => ?_
  constructor
  · rintro ⟨line, n, p, hline, ⟨rfl, rfl, rfl⟩ | ⟨len, data, hlen, hle, ⟨rfl, rfl⟩, rfl⟩, rfl⟩
    · simpa using BulkUnit.null hline
    · simpa using BulkUnit.data hline hlen hle
  · generalize hunit : dollar :: part = unit
    rintro (⟨hline⟩ | ⟨hline, hlen, hle⟩)
    · obtain rfl := List.tail_eq_of_cons_eq hunit
      exact ⟨part, -1, [], hline, .inl ⟨rfl, rfl, rfl⟩, by simp⟩
    · obtain rfl := List.tail_eq_of_cons_eq hunit
      exact ⟨_, _, _, hline, .inr ⟨_, _, hlen, hle, ⟨rfl, rfl⟩, rfl⟩, by simp⟩

/-- Every bulk string has its tag. -/
theorem exists_tag_of_bulkUnit {b : Bytes} {item : Option Bytes} (h : BulkUnit b item) :
    ∃ p, b = dollar :: p := by
  cases h with
  | null => exact ⟨_, rfl⟩
  | data => exact ⟨_, rfl⟩

/-- A first bulk string, after its tag, and the others. -/
theorem bulks_succ_iff {n : Nat} {part : Bytes} {items : List (Option Bytes)} :
    (∃ tag p, (tag = dollar ∧ ∃ p' item q items', BulkUnit (dollar :: p') item ∧
      Bulks q items' ∧ items'.length = n ∧ items = item :: items' ∧ p = p' ++ q) ∧
        part = tag :: p) ↔
    Bulks part items ∧ items.length = n + 1 := by
  constructor
  · rintro ⟨tag, p, ⟨rfl, p, item, q, items', hp, hq, rfl, rfl, rfl⟩, rfl⟩
    exact ⟨.cons hp hq, rfl⟩
  · rintro ⟨hpart, hlen⟩
    cases hpart with
    | nil => simp at hlen
    | cons hp hq =>
        rename_i p q item items'
        obtain ⟨p', rfl⟩ := exists_tag_of_bulkUnit hp
        exact ⟨dollar, p' ++ q,
          ⟨rfl, p', item, q, items', hp, hq, by simpa using hlen, rfl, rfl⟩, rfl⟩

/-- `n` bulk strings one after the other. -/
theorem reads_scanBulks (n : Nat) :
    Reads (scanBulks n) fun part items => Bulks part items ∧ items.length = n := by
  induction n with
  | zero =>
      refine (Reads.pure []).congr fun part items => ?_
      constructor
      · rintro ⟨rfl, rfl⟩
        exact ⟨.nil, rfl⟩
      · rintro ⟨h, hlen⟩
        cases h with
        | nil => exact ⟨rfl, rfl⟩
        | cons => simp at hlen
  | succ n ih =>
      have h : scanBulks (n + 1) = byFirst fun tag b =>
          if tag != dollar then .malformed .elementNotBulk
          else (scanBulk b).andThen fun item rest => (scanBulks n rest).map (item :: ·) := by
        funext b
        cases b <;> rfl
      have hbyte : ∀ tag, Reads
          (fun b =>
            if tag != dollar then .malformed .elementNotBulk
            else (scanBulk b).andThen fun item rest => (scanBulks n rest).map (item :: ·))
          fun part items => tag = dollar ∧ ∃ p item q items', BulkUnit (dollar :: p) item ∧
            Bulks q items' ∧ items'.length = n ∧ items = item :: items' ∧ part = p ++ q := by
        intro tag
        by_cases htag : tag = dollar
        · simp only [htag, bne_self_eq_false, Bool.false_eq_true, if_false, true_and]
          refine (reads_scanBulk.andThen fun item => ih.map (item :: ·)).congr fun part items => ?_
          constructor
          · rintro ⟨p, item, q, hp, ⟨items', ⟨hq, hlen⟩, rfl⟩, rfl⟩
            exact ⟨p, item, q, items', hp, hq, hlen, rfl, rfl⟩
          · rintro ⟨p, item, q, items', hp, hq, hlen, rfl, rfl⟩
            exact ⟨p, item, q, hp, ⟨items', ⟨hq, hlen⟩, rfl⟩, rfl⟩
        · simpa [htag] using Reads.fail (α := List (Option Bytes)) .elementNotBulk
      rw [h]
      exact (Reads.byte hbyte).congr fun part items => bulks_succ_iff

theorem scanArray_eq (b : Bytes) :
    scanArray b =
      (scanNumber b).andThen (sized maxElements .negativeArrayLength .tooManyElements scanBulks) :=
  rfl

theorem reads_scanArray : Reads scanArray fun part items => ArrayUnit (star :: part) items := by
  rw [funext scanArray_eq]
  refine (reads_scanNumber.andThen (reads_sized reads_scanBulks)).congr fun part items => ?_
  constructor
  · rintro ⟨line, n, p, hline, ⟨rfl, rfl, rfl⟩ | ⟨len, items, hlen, hle, ⟨hp, rfl⟩, rfl⟩, rfl⟩
    · simpa using ArrayUnit.null hline
    · simpa using ArrayUnit.items hline hlen hle hp
  · generalize hunit : star :: part = unit
    rintro (⟨hline⟩ | ⟨hline, hlen, hle, hp⟩)
    · obtain rfl := List.tail_eq_of_cons_eq hunit
      exact ⟨part, -1, [], hline, .inl ⟨rfl, rfl, rfl⟩, by simp⟩
    · obtain rfl := List.tail_eq_of_cons_eq hunit
      exact ⟨_, _, _, hline, .inr ⟨_, _, hlen, hle, ⟨hp, rfl⟩, rfl⟩, by simp⟩

/-! ## Units -/

/-- A unit by its tag. -/
theorem derives_cons_iff {tag : UInt8} {part : Bytes} {v : Value} :
    Derives (tag :: part) v ↔
      (tag = plus ∧ ∃ text, (cr ∉ text ∧ part = text ++ crlf) ∧ v = .status text) ∨
      (tag = minus ∧ ∃ text, (cr ∉ text ∧ part = text ++ crlf) ∧ v = .error text) ∨
      (tag = colon ∧ ∃ n, NumberLine part n ∧ v = .integer n) ∨
      (tag = dollar ∧ ∃ item, BulkUnit (dollar :: part) item ∧ v = .bulk item) ∨
      (tag = star ∧ ∃ items, ArrayUnit (star :: part) items ∧
        v = .array (items.map (·.map .bulk))) := by
  constructor
  · generalize hunit : tag :: part = unit
    intro h
    cases h with
    | status htext =>
        obtain ⟨rfl, rfl⟩ := List.cons.inj hunit
        exact .inl ⟨rfl, _, ⟨htext, rfl⟩, rfl⟩
    | error htext =>
        obtain ⟨rfl, rfl⟩ := List.cons.inj hunit
        exact .inr (.inl ⟨rfl, _, ⟨htext, rfl⟩, rfl⟩)
    | integer hline =>
        obtain ⟨rfl, rfl⟩ := List.cons.inj hunit
        exact .inr (.inr (.inl ⟨rfl, _, hline, rfl⟩))
    | bulk hitem =>
        -- the tag is part of the line with the length, so it is found inside
        obtain rfl : tag = dollar := by
          cases hitem <;> exact (List.cons.inj hunit).1
        exact .inr (.inr (.inr (.inl ⟨rfl, _, hunit ▸ hitem, rfl⟩)))
    | array hitems =>
        obtain rfl : tag = star := by
          cases hitems <;> exact (List.cons.inj hunit).1
        exact .inr (.inr (.inr (.inr ⟨rfl, _, hunit ▸ hitems, rfl⟩)))
  · rintro (⟨rfl, text, ⟨htext, rfl⟩, rfl⟩ | ⟨rfl, text, ⟨htext, rfl⟩, rfl⟩ |
      ⟨rfl, n, hline, rfl⟩ | ⟨rfl, item, hitem, rfl⟩ | ⟨rfl, items, hitems, rfl⟩)
    · exact .status htext
    · exact .error htext
    · exact .integer hline
    · exact .bulk hitem
    · exact .array hitems

theorem reads_scan_cons (tag : UInt8) :
    Reads (fun b => scan (tag :: b)) fun part v => Derives (tag :: part) v := by
  simp only [derives_cons_iff, scan]
  split
  · rename_i htag
    subst htag
    simpa [plus, minus, colon, dollar, star] using reads_scanLine.map Value.status
  · rename_i hplus
    split
    · rename_i htag
      subst htag
      simpa [plus, minus, colon, dollar, star] using reads_scanLine.map Value.error
    · rename_i hminus
      split
      · rename_i htag
        subst htag
        simpa [plus, minus, colon, dollar, star] using reads_scanNumber.map Value.integer
      · rename_i hcolon
        split
        · rename_i htag
          subst htag
          simpa [plus, minus, colon, dollar, star] using reads_scanBulk.map Value.bulk
        · rename_i hdollar
          split
          · rename_i htag
            subst htag
            simpa [plus, minus, colon, dollar, star] using
              reads_scanArray.map fun items => Value.array (items.map (·.map .bulk))
          · rename_i hstar
            simpa [hplus, hminus, hcolon, hdollar, hstar] using Reads.fail (α := Value) .unknownTag

/-- No unit is empty. -/
theorem not_derives_nil (v : Value) : ¬ Derives [] v := by
  generalize hnil : ([] : Bytes) = part
  intro h
  cases h with
  | status => cases hnil
  | error => cases hnil
  | integer => cases hnil
  | bulk hitem => cases hitem <;> cases hnil
  | array hitems => cases hitems <;> cases hnil

/-- A unit is read exactly where the grammar derives one. -/
theorem scan_done_iff {b rest : Bytes} {v : Value} :
    scan b = .done v rest ↔ ∃ part, Derives part v ∧ b = part ++ rest := by
  cases b with
  | nil =>
      constructor
      · intro h
        cases h
      · rintro ⟨part, hpart, hb⟩
        rw [List.append_eq_nil_iff.mp hb.symm |>.1] at hpart
        exact absurd hpart (not_derives_nil v)
  | cons tag b =>
      rw [(reads_scan_cons tag).done_iff]
      constructor
      · rintro ⟨p, hp, rfl⟩
        exact ⟨tag :: p, hp, rfl⟩
      · rintro ⟨part, hpart, hb⟩
        cases part with
        | nil => exact absurd hpart (not_derives_nil v)
        | cons c p =>
            obtain ⟨rfl, rfl⟩ := List.cons.inj hb
            exact ⟨p, hpart, rfl⟩

/-- More bytes do not mend a defect. -/
theorem scan_malformed {b : Bytes} {why : Defect} (hb : b ≠ []) (h : scan b = .malformed why)
    (s : Bytes) : scan (b ++ s) = .malformed why := by
  obtain ⟨tag, b, rfl⟩ := List.exists_cons_of_ne_nil hb
  exact (reads_scan_cons tag).malformed h s

end ShardProxy.Wire
