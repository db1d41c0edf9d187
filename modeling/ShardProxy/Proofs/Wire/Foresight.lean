import ShardProxy.Proofs.Wire.Encoding

/-!
# How unfinished bytes may go on

A reader that finds its bytes incomplete waits for more of them. `Foresees f wanted doomed` says
which of them it waits for in vain: bytes that are not `doomed` are the front of some bytes from
which a wanted value is read, and bytes that are doomed are the front of none. The number in front
of a string or of an array is wanted only within the limits of what it announces, so the values that
are wanted depend on the reader that comes next.

* `Foresees.settled`, `Foresees.byte`, `Foresees.andThen`, `Foresees.map` — as readers are put
  together;
* `foresees_scanLine` — a line of text may always go on;
* `DoomedLine`, `foresees_scanNumber` — a number is judged only where its line ends, so the digits
  of one that is too large already are waited on, however many come.
-/

namespace ShardProxy.Wire

variable {α β : Type}

/-- What becomes of the bytes that a reader finds incomplete. -/
structure Foresees (f : Bytes → Scan α) (wanted : α → Prop) (doomed : Bytes → Prop) : Prop where
  hopeful : ∀ {b}, f b = .incomplete → ¬ doomed b → ∃ s v, wanted v ∧ f (b ++ s) = .done v []
  waiting : ∀ {b}, doomed b → f b = .incomplete
  hopeless : ∀ {b s v rest}, doomed b → f (b ++ s) = .done v rest → ¬ wanted v

theorem Scan.andThen_eq_incomplete {s : Scan α} {f : α → Bytes → Scan β} :
    s.andThen f = .incomplete ↔
      s = .incomplete ∨ ∃ a mid, s = .done a mid ∧ f a mid = .incomplete := by
  cases s <;> simp [Scan.andThen]

namespace Foresees

variable {f : Bytes → Scan α} {R : Bytes → α → Prop} {wanted wanted' : α → Prop}
  {doomed doomed' : Bytes → Prop}

/-- The doomed bytes may be described in another way. -/
theorem congr (hf : Foresees f wanted doomed) (h : ∀ b, doomed b ↔ doomed' b) :
    Foresees f wanted doomed' := by
  obtain rfl : doomed = doomed' := funext fun b => propext (h b)
  exact hf

/-- So may the values that are wanted. -/
theorem congr_wanted (hf : Foresees f wanted doomed) (h : ∀ v, wanted v ↔ wanted' v) :
    Foresees f wanted' doomed := by
  obtain rfl : wanted = wanted' := funext fun v => propext (h v)
  exact hf

/-- A reader that never waits. -/
theorem settled (h : ∀ b, f b ≠ .incomplete) : Foresees f wanted fun _ => False where
  hopeful := fun hb _ => absurd hb (h _)
  waiting := False.elim
  hopeless := fun hb _ => hb.elim

theorem fail (why : Defect) :
    Foresees (fun _ => (Scan.malformed why : Scan α)) wanted fun _ => False :=
  settled fun _ => by simp

/-- A reader whose next step depends on one byte waits for it as long as it may read anything. -/
theorem byte {g : UInt8 → Bytes → Scan α} {later : UInt8 → Bytes → Prop}
    (hg : ∀ c, Foresees (g c) wanted (later c))
    (hany : ∃ b v, wanted v ∧ byFirst g b = .done v []) :
    Foresees (byFirst g) wanted fun b => ∃ c p, later c p ∧ b = c :: p where
  hopeful := by
    intro b hb hopes
    cases b with
    | nil => simpa using hany
    | cons c b => exact (hg c).hopeful hb fun h => hopes ⟨c, b, h, rfl⟩
  waiting := by
    rintro b ⟨c, p, h, rfl⟩
    exact (hg c).waiting h
  hopeless := by
    rintro b s v rest ⟨c, p, h, rfl⟩ hdone
    exact (hg c).hopeless h hdone

/-- One reader after another: the bytes of the first are doomed if none that it may still read are
followed by anything wanted of the second. -/
theorem andThen {g : α → Bytes → Scan β} {S : α → Bytes → β → Prop} {wanted' : β → Prop}
    {later : α → Bytes → Prop} (hf : Reads f R) (hg : ∀ a, Reads (g a) (S a))
    (first : Foresees f (fun a => ∃ q w, wanted' w ∧ S a q w) doomed)
    (second : ∀ a, Foresees (g a) wanted' (later a)) :
    Foresees (fun b => (f b).andThen g) wanted'
      fun b => doomed b ∨ ∃ p a mid, R p a ∧ later a mid ∧ b = p ++ mid where
  hopeful := by
    intro b hb hopes
    rcases Scan.andThen_eq_incomplete.mp hb with hwait | ⟨a, mid, ha, hwait⟩
    · obtain ⟨s, a, ⟨q, w, hw, hq⟩, ha⟩ := first.hopeful hwait fun h => hopes (.inl h)
      refine ⟨s ++ q, w, hw, ?_⟩
      rw [← List.append_assoc, hf.append ha q]
      simpa [Scan.andThen] using (hg a).of_derived hq []
    · obtain ⟨p, hp, rfl⟩ := hf.done_iff.mp ha
      obtain ⟨s, w, hw, hdone⟩ := (second a).hopeful hwait fun h =>
        hopes (.inr ⟨p, a, mid, hp, h, rfl⟩)
      refine ⟨s, w, hw, ?_⟩
      rw [hf.append ha s]
      exact hdone
  waiting := by
    rintro b (h | ⟨p, a, mid, hp, hlater, rfl⟩)
    · rw [first.waiting h]
      rfl
    · rw [hf.of_derived hp mid]
      exact (second a).waiting hlater
  hopeless := by
    rintro b s w rest (h | ⟨p, a, mid, hp, hlater, rfl⟩) hdone hw
    · obtain ⟨a, after, ha, hdone⟩ := Scan.andThen_eq_done.mp hdone
      obtain ⟨q, hq, _⟩ := (hg a).done_iff.mp hdone
      exact first.hopeless h ha ⟨q, w, hw, hq⟩
    · rw [List.append_assoc, hf.of_derived hp (mid ++ s)] at hdone
      exact (second a).hopeless hlater hdone hw

/-- The same where the second reader may always read something that is wanted. -/
theorem andThen_of_forall {g : α → Bytes → Scan β} {S : α → Bytes → β → Prop} {wanted' : β → Prop}
    {later : α → Bytes → Prop} (hf : Reads f R) (hg : ∀ a, Reads (g a) (S a))
    (first : Foresees f (fun _ => True) doomed) (hany : ∀ a, ∃ q w, wanted' w ∧ S a q w)
    (second : ∀ a, Foresees (g a) wanted' (later a)) :
    Foresees (fun b => (f b).andThen g) wanted'
      fun b => doomed b ∨ ∃ p a mid, R p a ∧ later a mid ∧ b = p ++ mid :=
  andThen hf hg (first.congr_wanted fun a => iff_of_true trivial (hany a)) second

theorem map (hf : Reads f R) (first : Foresees f (fun _ => True) doomed) (g : α → β) :
    Foresees (fun b => (f b).map g) (fun _ => True) doomed :=
  (andThen_of_forall hf (fun a => .pure (g a)) first (fun a => ⟨[], g a, trivial, rfl, rfl⟩)
    fun a => settled fun b => by simp).congr fun b => by simp

end Foresees

/-! ## Text -/

theorem endOfLine_eq_incomplete {v : α} {b : Bytes} : endOfLine v b = .incomplete ↔ b = [] := by
  cases b with
  | nil => simp [endOfLine]
  | cons l rest =>
      simp only [endOfLine, reduceCtorEq, iff_false]
      split <;> simp

theorem foresees_scanLine : Foresees scanLine (fun _ => True) fun _ => False where
  hopeful := by
    intro b hb _
    rcases exists_break (· != cr) b with hall | ⟨text, c, rest, rfl, htext, hc⟩
    · exact ⟨crlf, b, trivial, by rw [crlf, scanLine_append hall]; rfl⟩
    · obtain rfl : c = cr := by simpa using hc
      rw [scanLine_append htext, endOfLine_eq_incomplete] at hb
      refine ⟨[lf], text, trivial, ?_⟩
      rw [hb, List.append_assoc, List.cons_append, scanLine_append htext]
      rfl
  waiting := False.elim
  hopeless := fun h _ => h.elim

/-! ## Numbers -/

/-- What may stand in front of the digits. -/
def signs : List Bytes := [[], [plus], [minus]]

/-- What may have come of a line end. -/
def lineEnds : List Bytes := [[], [cr]]

theorem mem_lineEnds_iff {ends : Bytes} : ends ∈ lineEnds ↔ ends = [] ∨ ends = [cr] := by
  simp [lineEnds]

/-- An unfinished line that no bytes complete to a number within the limits: its digits exceed them
already, or the line ends without a digit. -/
inductive DoomedLine (low high : Int) : Bytes → Prop where
  | exceeds {text v ends} : Spells text v → ¬ (low ≤ v ∧ v ≤ high) → ends ∈ lineEnds →
      DoomedLine low high (text ++ ends)
  | digitless {sign} : sign ∈ signs → DoomedLine low high (sign ++ [cr])

theorem splitSign_append {text : Bytes} (h : text ≠ []) (more : Bytes) :
    splitSign (text ++ more) = ((splitSign text).1, (splitSign text).2 ++ more) := by
  obtain ⟨c, rest, rfl⟩ := List.exists_cons_of_ne_nil h
  simp only [List.cons_append, splitSign]
  split_ifs <;> rfl

theorem splitSign_append_cr (text rest : Bytes) :
    splitSign (text ++ cr :: rest) = ((splitSign text).1, (splitSign text).2 ++ cr :: rest) := by
  by_cases h : text = []
  · subst h
    rfl
  · exact splitSign_append h _

theorem mem_signs_iff {text : Bytes} : text ∈ signs ↔ (splitSign text).2 = [] := by
  constructor
  · revert text
    decide
  · intro h
    cases text with
    | nil => simp [signs]
    | cons c rest =>
        simp only [splitSign] at h
        split_ifs at h with hm hpl
        · simp_all [signs]
        · simp_all [signs]

/-- What was taken away as a sign can be put back in front of fewer bytes. -/
theorem exists_splitSign_eq {b ds : Bytes} {c : UInt8} (h : (splitSign b).2 = ds ++ [c]) :
    ∃ text, b = text ++ [c] ∧ (splitSign text).2 = ds := by
  cases b with
  | nil => simp [splitSign] at h
  | cons x rest =>
      simp only [splitSign] at h
      split_ifs at h with hm hpl
      · obtain rfl : rest = ds ++ [c] := h
        exact ⟨x :: ds, rfl, by simp [splitSign, hm]⟩
      · obtain rfl : rest = ds ++ [c] := h
        exact ⟨x :: ds, rfl, by rw [splitSign, if_neg hm, if_pos hpl]⟩
      · refine ⟨ds, h, ?_⟩
        cases ds with
        | nil => rfl
        | cons d ds =>
            obtain ⟨rfl, _⟩ := List.cons.inj h
            simp [splitSign, hm, hpl]

/-- The line of a number is unfinished while there is no byte but its sign, its digits and perhaps
the first byte of the line end. -/
theorem scanNumber_eq_incomplete {b : Bytes} :
    scanNumber b = .incomplete ↔
      ∃ text ends, (∀ d ∈ (splitSign text).2, Digit d) ∧ ends ∈ lineEnds ∧ b = text ++ ends := by
  constructor
  · intro h
    rcases exists_break isDigit (splitSign b).2 with hall | ⟨ds, c, rest, hbody, hds, hc⟩
    · exact ⟨b, [], by simpa only [isDigit_iff] using hall, mem_lineEnds_iff.mpr (.inl rfl),
        (List.append_nil b).symm⟩
    · rw [scanNumber_eq, hbody, scanDigits_append _ hds hc] at h
      unfold numberEnd at h
      split at h
      · cases h
      rename_i hcr
      obtain rfl : c = cr := by simpa using hcr
      rcases Scan.andThen_eq_incomplete.mp h with hwait | ⟨_, mid, _, hjudged⟩
      · obtain rfl := endOfLine_eq_incomplete.mp hwait
        obtain ⟨text, rfl, rfl⟩ := exists_splitSign_eq hbody
        exact ⟨text, [cr], by simpa only [isDigit_iff] using hds, mem_lineEnds_iff.mpr (.inr rfl),
          rfl⟩
      · split at hjudged <;> cases hjudged
  · rintro ⟨text, ends, htext, hends, rfl⟩
    simp only [← isDigit_iff] at htext
    rcases mem_lineEnds_iff.mp hends with rfl | rfl
    · rw [List.append_nil, scanNumber_eq, scanDigits_of_digits _ htext]
    · rw [scanNumber_eq, splitSign_append_cr, scanDigits_append _ htext (by decide)]
      rfl

/-- A number that fits in 64 bits ends with its line. -/
theorem numberLine_of_spells {text : Bytes} {v : Int} (h : Spells text v)
    (hlow : Int64.minValue.toInt ≤ v) (hhigh : v ≤ Int64.maxValue.toInt) :
    ∃ n : Int64, n.toInt = v ∧ NumberLine (text ++ crlf) n := by
  have hn : (Int64.ofInt v).toInt = v :=
    Int64.toInt_ofInt_of_le hlow (Int.lt_add_one_of_le hhigh)
  exact ⟨Int64.ofInt v, hn, .mk (hn.symm ▸ h)⟩

/-- With more digits a number only moves away from zero. -/
theorem spells_append {text more : Bytes} {v w : Int} (hv : Spells text v)
    (hw : Spells (text ++ more) w) : (0 < v → v ≤ w) ∧ (v < 0 → w ≤ v) := by
  obtain ⟨hne, _, rfl⟩ := spells_iff.mp hv
  obtain ⟨_, _, rfl⟩ := spells_iff.mp hw
  have htext : text ≠ [] := by
    rintro rfl
    exact hne rfl
  have hgrow : ∀ ds more : Bytes, decimal ds ≤ decimal (ds ++ more) := by
    intro ds more
    induction more using List.reverseRecOn with
    | nil => simp
    | append_singleton more d ih =>
        rw [← List.append_assoc, decimal_append]
        omega
  have hdigits := hgrow (splitSign text).2 more
  rw [splitSign_append htext]
  dsimp only
  unfold signedDecimal
  split <;> omega

/-- No CR is part of a number. -/
theorem cr_not_mem_of_spells {text : Bytes} {v : Int} (h : Spells text v) : cr ∉ text := by
  have hdigits : ∀ ds : Bytes, (∀ d ∈ ds, Digit d) → cr ∉ ds :=
    fun ds hds hcr => absurd (hds cr hcr) (by decide)
  cases h with
  | unsigned _ hds => exact hdigits text hds
  | plus _ hds => simpa [plus, cr] using hdigits _ hds
  | minus _ hds => simpa [minus, cr] using hdigits _ hds

/-- Bytes without a CR that begin a line are the front of its text. -/
theorem exists_eq_append {text text' s rest : Bytes} (h : cr ∉ text)
    (heq : text ++ s = text' ++ cr :: rest) : ∃ more, text' = text ++ more := by
  rcases List.append_eq_append_iff.mp heq with ⟨more, rfl, _⟩ | ⟨more, rfl, hmore⟩
  · exact ⟨more, rfl⟩
  · cases more with
    | nil => exact ⟨[], by simp⟩
    | cons c more =>
        obtain ⟨rfl, _⟩ := List.cons.inj hmore
        simp at h

variable {low high : Int}

theorem DoomedLine.waiting {b : Bytes} (h : DoomedLine low high b) :
    scanNumber b = .incomplete := by
  rw [scanNumber_eq_incomplete]
  cases h with
  | exceeds hv _ hends => exact ⟨_, _, (spells_iff.mp hv).2.1, hends, rfl⟩
  | digitless hsign =>
      have hempty := mem_signs_iff.mp hsign
      exact ⟨_, [cr], fun d hd => by simp [hempty] at hd, mem_lineEnds_iff.mpr (.inr rfl), rfl⟩

/-- No number within the limits comes of a doomed line. -/
theorem DoomedLine.hopeless {b s rest : Bytes} {n : Int64} (h : DoomedLine low high b)
    (hzero : low ≤ 0 ∧ 0 ≤ high) (hn : scanNumber (b ++ s) = .done n rest) :
    ¬ (low ≤ n.toInt ∧ n.toInt ≤ high) := by
  obtain ⟨_, ⟨hspells⟩, hb⟩ := reads_scanNumber.done_iff.mp hn
  rw [crlf, List.append_assoc, List.cons_append] at hb
  cases h with
  | exceeds hv hexceeds hends =>
      rw [List.append_assoc] at hb
      obtain ⟨more, rfl⟩ := exists_eq_append (cr_not_mem_of_spells hv) hb
      obtain ⟨hup, hdown⟩ := spells_append hv hspells
      omega
  | digitless hsign =>
      -- the number would have to be in front of the CR, where there is no digit
      rw [List.append_assoc, List.singleton_append] at hb
      obtain ⟨more, rfl⟩ := exists_eq_append (cr_not_mem_of_spells hspells) hb.symm
      obtain ⟨hne, _⟩ := spells_iff.mp hspells
      have hempty := mem_signs_iff.mp hsign
      rw [splitSign_append (by rintro rfl; exact hne rfl)] at hempty
      exact absurd (List.append_eq_nil_iff.mp hempty).1 hne

/-- The zero that may follow a sign. -/
theorem spells_zero {sign : Bytes} (h : sign ∈ signs) : Spells (sign ++ [48]) 0 := by
  have hdigit : ∀ d ∈ ([48] : Bytes), Digit d := by simp [Digit]
  have hzero : (decimal [48] : Int) = 0 := by rw [decimal_singleton]; rfl
  simp only [signs, List.mem_cons, List.not_mem_nil, or_false] at h
  rcases h with rfl | rfl | rfl
  · exact hzero ▸ .unsigned (List.cons_ne_nil _ _) hdigit
  · exact hzero ▸ .plus (List.cons_ne_nil _ _) hdigit
  · have hminus := Spells.minus (List.cons_ne_nil _ _) hdigit
    rwa [hzero, neg_zero] at hminus

/-- A number within limits that hold zero and fit in 64 bits. -/
theorem foresees_scanNumber (hzero : low ≤ 0 ∧ 0 ≤ high) (hlow : Int64.minValue.toInt ≤ low)
    (hhigh : high ≤ Int64.maxValue.toInt) :
    Foresees scanNumber (fun n => low ≤ n.toInt ∧ n.toInt ≤ high) (DoomedLine low high) where
  hopeful := by
    intro b hb hopes
    obtain ⟨text, ends, htext, hends, rfl⟩ := scanNumber_eq_incomplete.mp hb
    obtain ⟨after, hafter⟩ : ∃ after, ends ++ after = crlf := by
      rcases mem_lineEnds_iff.mp hends with rfl | rfl
      · exact ⟨crlf, rfl⟩
      · exact ⟨[lf], rfl⟩
    by_cases hempty : (splitSign text).2 = []
    · -- without a digit there is no line end yet, so zero may follow
      have hsign := mem_signs_iff.mpr hempty
      obtain rfl : ends = [] := (mem_lineEnds_iff.mp hends).resolve_right fun hcr =>
        hopes (hcr ▸ .digitless hsign)
      have hline : NumberLine (text ++ [48] ++ crlf) 0 := .mk (spells_zero hsign)
      refine ⟨[48] ++ crlf, 0, hzero, ?_⟩
      simpa using reads_scanNumber.of_derived hline []
    · have hspells := spells_iff.mpr ⟨hempty, htext, rfl⟩
      have hfits := not_not.mp fun h => hopes (.exceeds hspells h hends)
      obtain ⟨n, hn, hline⟩ := numberLine_of_spells hspells (by omega) (by omega)
      refine ⟨after, n, hn ▸ hfits, ?_⟩
      rw [List.append_assoc, hafter]
      simpa using reads_scanNumber.of_derived hline []
  waiting := DoomedLine.waiting
  hopeless := fun h => h.hopeless hzero

end ShardProxy.Wire
