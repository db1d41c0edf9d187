import ShardProxy.Proofs.Wire.Foresight

/-!
# Unfinished messages

Bytes that are found incomplete are the front of a message, or they are waited on in vain. The
second happens in the few places where a defect is looked for only once more bytes are there: in the
line of a number, which is judged at its end, and behind the data of a bulk string, where both bytes
of the line end are looked at together.

* `DoomedBulk`, `Doomed` — the bytes that are waited on in vain, a rule for each place;
* `foresees_scanBulk`, `foresees_scanBulks`, `foresees_scan_cons` — one lemma for each reader;
* `Message.read_incomplete_iff` — what incomplete means.
-/

namespace ShardProxy.Wire

variable {α : Type}

/-- The front of a bulk string that no bytes complete. -/
inductive DoomedBulk : Bytes → Prop where
  | length {line} : DoomedLine (-1) (512 * 1024 * 1024) line → DoomedBulk (dollar :: line)
  | data {line n data c} : NumberLine line n → n.toInt = data.length →
      data.length ≤ 512 * 1024 * 1024 → c ≠ cr → DoomedBulk (dollar :: line ++ data ++ [c])

/-- The front of a unit that no bytes complete. -/
inductive Doomed : Bytes → Prop where
  | integer {line} : DoomedLine Int64.minValue.toInt Int64.maxValue.toInt line →
      Doomed (colon :: line)
  | bulk {p} : DoomedBulk p → Doomed p
  | count {line} : DoomedLine (-1) 1024 line → Doomed (star :: line)
  | element {line n p items q} : NumberLine line n → n.toInt ≤ 1024 → Bulks p items →
      (items.length : Int) < n.toInt → DoomedBulk q → Doomed (star :: line ++ p ++ q)

/-! ## Bulk strings -/

theorem length_lt_of_scanData {len : Nat} {b : Bytes} (h : scanData len b = .incomplete) :
    b.length < len + 2 := by
  by_contra hlong
  have hdrop : (b.drop len).length = b.length - len := List.length_drop
  unfold scanData at h
  split at h
  · split at h <;> cases h
  · rename_i hshort
    match hb : b.drop len with
    | [] => simp [hb] at hdrop; omega
    | [c] => simp [hb] at hdrop; omega
    | c :: l :: rest => exact hshort c l rest hb

theorem foresees_scanData (len : Nat) :
    Foresees (scanData len) (fun _ => True)
      fun b => ∃ data c, data.length = len ∧ c ≠ cr ∧ b = data ++ [c] where
  hopeful := by
    intro b hb hopes
    have hshort := length_lt_of_scanData hb
    rcases Nat.lt_or_ge len b.length with hlt | hle
    · obtain ⟨data, c, hlen, rfl⟩ : ∃ data c, data.length = len ∧ b = data ++ [c] := by
        obtain ⟨c, hc⟩ := List.length_eq_one_iff.mp (show (b.drop len).length = 1 by
          rw [List.length_drop]; omega)
        exact ⟨b.take len, c, List.length_take_of_le hlt.le, by rw [← hc, List.take_append_drop]⟩
      obtain rfl : c = cr := not_not.mp fun hne => hopes ⟨data, c, hlen, hne, rfl⟩
      have hdone := (reads_scanData len).of_derived ⟨hlen, rfl⟩ []
      exact ⟨[lf], data, trivial, by simpa [crlf] using hdone⟩
    · -- any bytes will do for the data that is missing
      have hlen : (b ++ List.replicate (len - b.length) 0).length = len := by
        rw [List.length_append, List.length_replicate]
        omega
      have hdone := (reads_scanData len).of_derived ⟨hlen, rfl⟩ []
      exact ⟨List.replicate (len - b.length) 0 ++ crlf, _, trivial, by simpa using hdone⟩
  waiting := by
    rintro b ⟨data, c, rfl, _, rfl⟩
    simp [scanData]
  hopeless := by
    rintro b s v rest ⟨data, c, hlen, hc, rfl⟩ hdone _
    obtain ⟨_, ⟨hv, rfl⟩, hb⟩ := (reads_scanData len).done_iff.mp hdone
    rw [List.append_assoc, List.append_assoc] at hb
    obtain ⟨_, hafter⟩ := List.append_inj hb (hlen.trans hv.symm)
    exact hc (List.cons.inj hafter).1

/-- The lengths that announce something. -/
theorem exists_sized_iff {limit : Nat} {B : Nat → Bytes → α → Prop}
    (hB : ∀ len, ∃ q w, B len q w) (n : Int64) :
    (∃ q w, True ∧ Sized limit B n q w) ↔ -1 ≤ n.toInt ∧ n.toInt ≤ limit := by
  constructor
  · rintro ⟨q, w, _, ⟨rfl, _⟩ | ⟨len, _, hlen, hle, _⟩⟩
    · exact ⟨le_rfl, by simp⟩
    · omega
  · rintro ⟨hlow, hhigh⟩
    rcases eq_or_lt_of_le hlow with hnull | hneg
    · exact ⟨[], none, trivial, .inl ⟨Int64.toInt_inj.mp hnull.symm, rfl, rfl⟩⟩
    · obtain ⟨len, hlen⟩ := (not_neg_iff n).mp (by rw [Int64.lt_iff_toInt_lt]; simp; omega)
      obtain ⟨q, w, hw⟩ := hB len
      exact ⟨q, some w, trivial, .inr ⟨len, w, hlen, by omega, hw, rfl⟩⟩

theorem foresees_sized {limit : Nat} {negative tooLarge : Defect} {body : Nat → Bytes → Scan α}
    {B : Nat → Bytes → α → Prop} {later : Nat → Bytes → Prop}
    (hbody : ∀ len, Reads (body len) (B len))
    (hlater : ∀ len, Foresees (body len) (fun _ => True) (later len)) (n : Int64) :
    Foresees (sized limit negative tooLarge body n) (fun _ => True)
      fun b => ∃ len : Nat, n.toInt = len ∧ len ≤ limit ∧ later len b := by
  unfold sized
  split
  · rename_i hnull
    subst hnull
    refine (Foresees.settled fun b => by simp).congr fun b => ⟨False.elim, ?_⟩
    rintro ⟨len, hlen, _⟩
    exact absurd ((not_neg_iff (-1)).mpr ⟨len, hlen⟩) (by decide)
  · split
    · rename_i hneg
      refine (Foresees.settled fun b => by simp).congr fun b => ⟨False.elim, ?_⟩
      rintro ⟨len, hlen, _⟩
      exact (not_neg_iff n).mpr ⟨len, hlen⟩ hneg
    · rename_i hneg
      obtain ⟨len, hlen⟩ := (not_neg_iff n).mp hneg
      simp only [hlen, Int.toNat_natCast]
      split
      · refine (Foresees.settled fun b => by simp).congr fun b => ⟨False.elim, ?_⟩
        rintro ⟨len', hlen', hle, _⟩
        omega
      · refine (Foresees.map (hbody len) (hlater len) some).congr fun b => ?_
        constructor
        · exact fun h => ⟨len, rfl, by omega, h⟩
        · rintro ⟨len', hlen', _, h⟩
          obtain rfl : len = len' := Int.ofNat_inj.mp hlen'
          exact h

/-- A length or a count, and what it announces. -/
theorem foresees_announced {limit : Nat} {negative tooLarge : Defect} {body : Nat → Bytes → Scan α}
    {B : Nat → Bytes → α → Prop} {later : Nat → Bytes → Prop}
    (hlimit : (limit : Int) ≤ Int64.maxValue.toInt) (hB : ∀ len, ∃ q w, B len q w)
    (hbody : ∀ len, Reads (body len) (B len))
    (hlater : ∀ len, Foresees (body len) (fun _ => True) (later len)) :
    Foresees (fun b => (scanNumber b).andThen (sized limit negative tooLarge body)) (fun _ => True)
      fun b => DoomedLine (-1) limit b ∨ ∃ line n rest, ∃ len : Nat, NumberLine line n ∧
        n.toInt = len ∧ len ≤ limit ∧ later len rest ∧ b = line ++ rest := by
  have hline : Foresees scanNumber (fun n => ∃ q w, True ∧ Sized limit B n q w)
      (DoomedLine (-1) limit) :=
    (foresees_scanNumber ⟨by omega, by omega⟩ (by decide) hlimit).congr_wanted fun n =>
      (exists_sized_iff hB n).symm
  refine (Foresees.andThen reads_scanNumber (reads_sized hbody) hline
    (foresees_sized hbody hlater)).congr fun b => or_congr Iff.rfl ?_
  constructor
  · rintro ⟨line, n, rest, hn, ⟨len, hlen, hle, h⟩, rfl⟩
    exact ⟨line, n, rest, len, hn, hlen, hle, h, rfl⟩
  · rintro ⟨line, n, rest, len, hn, hlen, hle, h, rfl⟩
    exact ⟨line, n, rest, hn, ⟨len, hlen, hle, h⟩, rfl⟩

theorem doomedBulk_cons_iff {b : Bytes} :
    DoomedBulk (dollar :: b) ↔ DoomedLine (-1) (512 * 1024 * 1024) b ∨
      ∃ line n rest, ∃ len : Nat, NumberLine line n ∧ n.toInt = len ∧ len ≤ maxBulk ∧
        (∃ data c, data.length = len ∧ c ≠ cr ∧ rest = data ++ [c]) ∧ b = line ++ rest := by
  constructor
  · generalize hfront : dollar :: b = front
    rintro (hline | ⟨hline, hlen, hle, hc⟩)
    · obtain rfl := List.tail_eq_of_cons_eq hfront
      exact .inl hline
    · obtain rfl := List.tail_eq_of_cons_eq hfront
      exact .inr ⟨_, _, _, _, hline, hlen, hle, ⟨_, _, rfl, hc, rfl⟩, List.append_assoc ..⟩
  · rintro (hline | ⟨line, n, rest, len, hline, hlen, hle, ⟨data, c, rfl, hc, rfl⟩, rfl⟩)
    · exact .length hline
    · simpa using DoomedBulk.data hline hlen hle hc

theorem foresees_scanBulk :
    Foresees scanBulk (fun _ => True) fun b => DoomedBulk (dollar :: b) := by
  rw [funext scanBulk_eq]
  have hdata : ∀ len, ∃ q w, w.length = len ∧ q = w ++ crlf := fun len =>
    ⟨_, List.replicate len 0, List.length_replicate, rfl⟩
  exact (foresees_announced (by decide) hdata reads_scanData foresees_scanData).congr fun b =>
    doomedBulk_cons_iff.symm

/-! ## Arrays -/

/-- The front of `n` bulk strings that no bytes complete. -/
def DoomedBulks (n : Nat) (b : Bytes) : Prop :=
  ∃ p items q, Bulks p items ∧ items.length < n ∧ DoomedBulk q ∧ b = p ++ q

/-- The first of the bulk strings is doomed, or it is read and the others are doomed. -/
theorem doomedBulks_succ_iff {n : Nat} {b : Bytes} :
    DoomedBulks (n + 1) b ↔
      DoomedBulk b ∨ ∃ p item rest, BulkUnit p item ∧ DoomedBulks n rest ∧ b = p ++ rest := by
  constructor
  · rintro ⟨_, _, q, hp, hlen, hq, rfl⟩
    cases hp with
    | nil => exact .inl hq
    | cons hitem hitems =>
        exact .inr ⟨_, _, _, hitem, ⟨_, _, q, hitems, Nat.succ_lt_succ_iff.mp hlen, hq, rfl⟩,
          List.append_assoc ..⟩
  · rintro (h | ⟨p, item, rest, hitem, ⟨p', items, q, hitems, hlen, hq, rfl⟩, rfl⟩)
    · exact ⟨[], [], b, .nil, Nat.succ_pos n, h, rfl⟩
    · exact ⟨p ++ p', item :: items, q, .cons hitem hitems, Nat.succ_lt_succ hlen, hq,
        (List.append_assoc ..).symm⟩

/-- Doomed or not, the front of a bulk string has its tag. -/
theorem exists_tag_of_doomedBulks {n : Nat} {b : Bytes} (h : DoomedBulks (n + 1) b) :
    ∃ p, b = dollar :: p := by
  rcases doomedBulks_succ_iff.mp h with hdoomed | ⟨p, item, rest, hitem, _, rfl⟩
  · cases hdoomed with
    | length => exact ⟨_, rfl⟩
    | data => exact ⟨_, rfl⟩
  · obtain ⟨p', rfl⟩ := exists_tag_of_bulkUnit hitem
    exact ⟨p' ++ rest, rfl⟩

theorem exists_bulks (n : Nat) : ∃ q items, Bulks q items ∧ items.length = n :=
  ⟨_, List.replicate n none, bulks_encodeAll fun data hdata d hd => by simp_all,
    List.length_replicate⟩

theorem foresees_scanBulks (n : Nat) :
    Foresees (scanBulks n) (fun _ => True) (DoomedBulks n) := by
  induction n with
  | zero =>
      refine (Foresees.settled fun b => by simp [scanBulks]).congr fun b => ⟨False.elim, ?_⟩
      rintro ⟨_, _, _, _, hlen, _⟩
      exact absurd hlen (Nat.not_lt_zero _)
  | succ n ih =>
      -- after the tag of the first one, which is the front of it
      have hitem : Foresees
          (fun b => (scanBulk b).andThen fun item rest => (scanBulks n rest).map (item :: ·))
          (fun _ => True) fun b => DoomedBulks (n + 1) (dollar :: b) := by
        obtain ⟨q, items, hitems⟩ := exists_bulks n
        refine (Foresees.andThen_of_forall reads_scanBulk
          (fun item => (reads_scanBulks n).map (item :: ·)) foresees_scanBulk
          (fun item => ⟨q, item :: items, trivial, items, hitems, rfl⟩)
          fun item => Foresees.map (reads_scanBulks n) ih (item :: ·)).congr fun b => ?_
        rw [doomedBulks_succ_iff]
        refine or_congr Iff.rfl ⟨?_, ?_⟩
        · rintro ⟨p, item, rest, hp, hrest, rfl⟩
          exact ⟨dollar :: p, item, rest, hp, hrest, rfl⟩
        · rintro ⟨p, item, rest, hp, hrest, hb⟩
          obtain ⟨p', rfl⟩ := exists_tag_of_bulkUnit hp
          exact ⟨p', item, rest, hp, hrest, (List.cons.inj hb).2⟩
      have hbyte : ∀ tag, Foresees
          (fun b =>
            if tag != dollar then .malformed .elementNotBulk
            else (scanBulk b).andThen fun item rest => (scanBulks n rest).map (item :: ·))
          (fun _ => True) fun b => tag = dollar ∧ DoomedBulks (n + 1) (dollar :: b) := by
        intro tag
        by_cases htag : tag = dollar
        · simpa [htag] using hitem
        · simp only [bne_iff_ne, ne_eq, htag, not_false_eq_true, if_true, false_and]
          exact .fail .elementNotBulk
      have h : scanBulks (n + 1) = byFirst fun tag b =>
          if tag != dollar then .malformed .elementNotBulk
          else (scanBulk b).andThen fun item rest => (scanBulks n rest).map (item :: ·) := by
        funext b
        cases b <;> rfl
      have hany : ∃ b items, True ∧ scanBulks (n + 1) b = .done items [] := by
        obtain ⟨q, items, hitems⟩ := exists_bulks (n + 1)
        exact ⟨q, items, trivial, by simpa using (reads_scanBulks (n + 1)).of_derived hitems []⟩
      rw [h] at hany ⊢
      refine (Foresees.byte hbyte hany).congr fun b => ⟨?_, fun hb => ?_⟩
      · rintro ⟨tag, p, ⟨rfl, hp⟩, rfl⟩
        exact hp
      · obtain ⟨p, rfl⟩ := exists_tag_of_doomedBulks hb
        exact ⟨dollar, p, ⟨rfl, hb⟩, rfl⟩

theorem foresees_scanArray :
    Foresees scanArray (fun _ => True) fun b =>
      DoomedLine (-1) 1024 b ∨ ∃ line n rest, ∃ len : Nat, NumberLine line n ∧ n.toInt = len ∧
        len ≤ maxElements ∧ DoomedBulks len rest ∧ b = line ++ rest := by
  rw [funext scanArray_eq]
  exact foresees_announced (by decide) exists_bulks reads_scanBulks foresees_scanBulks

/-! ## Units -/

theorem doomed_cons_iff {tag : UInt8} {b : Bytes} :
    Doomed (tag :: b) ↔
      (tag = colon ∧ DoomedLine Int64.minValue.toInt Int64.maxValue.toInt b) ∨
      (tag = dollar ∧ DoomedBulk (dollar :: b)) ∨
      (tag = star ∧ (DoomedLine (-1) 1024 b ∨ ∃ line n rest, ∃ len : Nat, NumberLine line n ∧
        n.toInt = len ∧ len ≤ maxElements ∧ DoomedBulks len rest ∧ b = line ++ rest)) := by
  constructor
  · generalize hfront : tag :: b = front
    intro h
    cases h with
    | integer hline =>
        obtain ⟨rfl, rfl⟩ := List.cons.inj hfront
        exact .inl ⟨rfl, hline⟩
    | bulk hbulk =>
        obtain rfl : tag = dollar := by
          cases hbulk <;> exact (List.cons.inj hfront).1
        exact .inr (.inl ⟨rfl, hfront ▸ hbulk⟩)
    | count hline =>
        obtain ⟨rfl, rfl⟩ := List.cons.inj hfront
        exact .inr (.inr ⟨rfl, .inl hline⟩)
    | element hline hle hitems hlen hbulk =>
        rename_i line n p items q
        obtain ⟨rfl, rfl⟩ := List.cons.inj hfront
        obtain ⟨len, hn⟩ : ∃ len : Nat, n.toInt = len := ⟨n.toInt.toNat, by omega⟩
        exact .inr (.inr ⟨rfl, .inr ⟨line, n, p ++ q, len, hline, hn, by rw [maxElements]; omega,
          ⟨p, items, q, hitems, by omega, hbulk, rfl⟩, List.append_assoc ..⟩⟩)
  · rintro (⟨rfl, hline⟩ | ⟨rfl, hbulk⟩ | ⟨rfl, hline | ⟨line, n, _, len, hline, hn, hle,
      ⟨p, items, q, hitems, hlen, hbulk, rfl⟩, rfl⟩⟩)
    · exact .integer hline
    · exact .bulk hbulk
    · exact .count hline
    · rw [maxElements] at hle
      simpa using Doomed.element hline (by omega) hitems (by omega) hbulk

theorem foresees_scan_cons (tag : UInt8) :
    Foresees (fun b => scan (tag :: b)) (fun _ => True) fun b => Doomed (tag :: b) := by
  have hinteger : Foresees scanNumber (fun _ => True)
      (DoomedLine Int64.minValue.toInt Int64.maxValue.toInt) :=
    (foresees_scanNumber (by decide) le_rfl le_rfl).congr_wanted fun n =>
      iff_of_true ⟨n.minValue_le_toInt, n.toInt_le⟩ trivial
  simp only [doomed_cons_iff, scan]
  split
  · rename_i htag
    subst htag
    simpa [plus, colon, dollar, star] using
      Foresees.map reads_scanLine foresees_scanLine Value.status
  · split
    · rename_i htag
      subst htag
      simpa [minus, colon, dollar, star] using
        Foresees.map reads_scanLine foresees_scanLine Value.error
    · split
      · rename_i htag
        subst htag
        simpa [colon, dollar, star] using Foresees.map reads_scanNumber hinteger Value.integer
      · rename_i hcolon
        split
        · rename_i htag
          subst htag
          simpa [colon, dollar, star] using
            Foresees.map reads_scanBulk foresees_scanBulk Value.bulk
        · rename_i hdollar
          split
          · rename_i htag
            subst htag
            simpa [colon, dollar, star] using Foresees.map reads_scanArray foresees_scanArray
              fun items => Value.array (items.map (·.map .bulk))
          · rename_i hstar
            simpa [hcolon, hdollar, hstar] using
              Foresees.fail (α := Value) .unknownTag

/-! ## Messages -/

namespace Message

theorem read_eq_incomplete {b : Bytes} : read b = .incomplete ↔ scan b = .incomplete := by
  simp [read, Scan.andThen_eq_incomplete]

/-- What doomed bytes lack is a message at their front, whatever follows them. -/
theorem not_read_of_doomed {b s rest : Bytes} {m : Message} (h : Doomed b) :
    read (b ++ s) ≠ .done m rest := by
  intro hread
  obtain ⟨v, mid, hscan, _⟩ := Scan.andThen_eq_done.mp hread
  cases b with
  | nil => cases h with | bulk hbulk => cases hbulk
  | cons tag b => exact (foresees_scan_cons tag).hopeless h hscan trivial

theorem read_of_doomed {b : Bytes} (h : Doomed b) : read b = .incomplete := by
  cases b with
  | nil => cases h with | bulk hbulk => cases hbulk
  | cons tag b => exact read_eq_incomplete.mpr ((foresees_scan_cons tag).waiting h)

/-- **What incomplete means.** Bytes are incomplete exactly if they are the front of a longer
message or doomed, and not both. Doomed bytes stay so as long as they stay incomplete. -/
theorem read_incomplete_iff (b : Bytes) (hb : b ≠ []) :
    (read b = .incomplete ↔ (∃ s, s ≠ [] ∧ ∃ m, read (b ++ s) = .done m []) ∨ Doomed b) ∧
    (Doomed b → (∀ s m rest, read (b ++ s) ≠ .done m rest) ∧
      ∀ s, read (b ++ s) = .incomplete → Doomed (b ++ s)) := by
  obtain ⟨tag, b, rfl⟩ := List.exists_cons_of_ne_nil hb
  have hfront : ∀ p, read (tag :: p) = .incomplete → ¬ Doomed (tag :: p) →
      ∃ s, ∃ m, read (tag :: p ++ s) = .done m [] := by
    intro p hp hopes
    obtain ⟨s, v, _, hscan⟩ := (foresees_scan_cons tag).hopeful (read_eq_incomplete.mp hp) hopes
    obtain ⟨part, hpart, hall⟩ := scan_done_iff.mp hscan
    exact ⟨s, ⟨part, v⟩, read_done_iff.mpr ⟨hpart, hall⟩⟩
  refine ⟨⟨fun h => ?_, ?_⟩, fun h => ⟨fun s m rest => not_read_of_doomed h, fun s hs => ?_⟩⟩
  · refine or_iff_not_imp_right.mpr fun hopes => ?_
    obtain ⟨s, m, hdone⟩ := hfront b h hopes
    refine ⟨s, ?_, m, hdone⟩
    rintro rfl
    rw [List.append_nil, h] at hdone
    cases hdone
  · rintro (⟨s, hs, m, hdone⟩ | h)
    · -- nothing shorter than a message has a verdict
      have hraw := (read_done_iff.mp hdone).2
      rw [List.append_nil] at hraw
      have hshort := read_take hdone (k := (tag :: b).length) (by simp) (by
        rw [← hraw, List.length_append]
        exact Nat.lt_add_of_pos_right (List.length_pos_iff.mpr hs))
      rwa [List.take_left] at hshort
    · exact read_of_doomed h
  · by_contra hopes
    obtain ⟨s', m, hdone⟩ := hfront (b ++ s) hs hopes
    rw [← List.cons_append, List.append_assoc] at hdone
    exact not_read_of_doomed h hdone

/-- A bulk string of one byte that breaks off behind it, and one that goes on with another byte. -/
theorem read_incomplete_iff_cut :
    ([36, 49, 13, 10, 97] : Bytes) ≠ [] ∧ read [36, 49, 13, 10, 97] = .incomplete ∧
      ([36, 49, 13, 10, 97, 98] : Bytes) ≠ [] ∧ read [36, 49, 13, 10, 97, 98] = .incomplete ∧
      ∀ s m rest, read ([36, 49, 13, 10, 97, 98] ++ s) ≠ .done m rest := by
  have hdoomed : Doomed [36, 49, 13, 10, 97, 98] := by
    have hread : scanNumber [49, 13, 10] = .done 1 [] := rfl
    obtain ⟨line, hline, hpart⟩ := reads_scanNumber.done_iff.mp hread
    obtain rfl : [49, 13, 10] = line := by simpa using hpart
    have hdata : DoomedBulk (dollar :: [49, 13, 10] ++ [97] ++ [98]) :=
      .data hline rfl (by decide) (by decide)
    exact .bulk hdata
  have hne : ([36, 49, 13, 10, 97] : Bytes) ≠ [] := List.cons_ne_nil _ _
  have hne' : ([36, 49, 13, 10, 97, 98] : Bytes) ≠ [] := List.cons_ne_nil _ _
  obtain ⟨hlong, hnever⟩ := read_incomplete_iff [36, 49, 13, 10, 97, 98] hne'
  refine ⟨hne, ?_, hne', hlong.mpr (.inr hdoomed), (hnever hdoomed).1⟩
  exact (read_incomplete_iff [36, 49, 13, 10, 97] hne).1.mpr
    (.inl ⟨crlf, by decide, ⟨_, .bulk (some [97])⟩, rfl⟩)

end Message

theorem decimal_nines (n : Nat) : decimal (List.replicate n 57) + 1 = 10 ^ n := by
  induction n with
  | zero => rfl
  | succ n ih =>
      rw [List.replicate_succ', decimal_append, pow_succ]
      simp only [UInt8.reduceToNat]
      omega

/-- The digits of a number that is too large, with more of them to come. -/
theorem doomed_nines (k : Nat) : Doomed (colon :: List.replicate (20 + k) 57) := by
  have hspells : Spells (List.replicate (20 + k) 57) (decimal (List.replicate (20 + k) 57)) := by
    refine .unsigned (by simp) fun d hd => ?_
    rw [List.eq_of_mem_replicate hd]
    decide
  have hexceeds : Int64.maxValue.toInt < decimal (List.replicate (20 + k) 57) := by
    have hnines := decimal_nines (20 + k)
    have hpow : 10 ^ 20 ≤ 10 ^ (20 + k) := Nat.pow_le_pow_right (by decide) (Nat.le_add_right 20 k)
    have hmax : Int64.maxValue.toInt = 9223372036854775807 := rfl
    omega
  have hline : DoomedLine Int64.minValue.toInt Int64.maxValue.toInt
      (List.replicate (20 + k) 57 ++ []) :=
    .exceeds hspells (fun h => absurd h.2 (not_le.mpr hexceeds)) (mem_lineEnds_iff.mpr (.inl rfl))
  rw [List.append_nil] at hline
  exact .integer hline

/-- Nines are waited on for ever: incomplete bytes need not be the front of any message. -/
theorem Message.nines_never_read :
    (∀ k, read (colon :: List.replicate (20 + k) 57) = .incomplete) ∧
      ¬ ∀ b, b ≠ [] → (read b = .incomplete ↔ ∃ s, s ≠ [] ∧ ∃ m, read (b ++ s) = .done m []) := by
  refine ⟨fun k => read_of_doomed (doomed_nines k), fun hall => ?_⟩
  obtain ⟨s, _, m, hdone⟩ := (hall _ (List.cons_ne_nil colon (List.replicate (20 + 0) 57))).mp
    (read_of_doomed (doomed_nines 0))
  exact not_read_of_doomed (doomed_nines 0) hdone

end ShardProxy.Wire
