import Mathlib
import ShardProxy.Wire.Scan

/-!
# What a reader reads

`Reads f R` is the specification of a reader `f`: it reads a value from the front of some bytes
exactly when the relation `R` derives that value from the bytes it takes, and a defect that it
has found is not mended by more bytes. A reader with such a specification can be run again each
time more bytes have come in.

The lemmas follow the ways in which readers are put together:

* `Reads.pure`, `Reads.fail` — a reader that takes nothing;
* `Reads.byte`, `Reads.afterByte`, `Reads.span` — one byte, what follows it, or all bytes up to the
  first one that is not accepted;
* `Reads.andThen`, `Reads.map` — one reader after another.
-/

namespace ShardProxy.Wire

variable {α β : Type}

/-- A reader whose next step depends on one byte. -/
def byFirst (g : UInt8 → Bytes → Scan α) : Bytes → Scan α
  | [] => .incomplete
  | c :: rest => g c rest

/-- The reader takes the bytes from which the relation derives a value, whatever follows them. A
defect stays the same defect. -/
structure Reads (f : Bytes → Scan α) (R : Bytes → α → Prop) : Prop where
  done_iff : ∀ {b v rest}, f b = .done v rest ↔ ∃ part, R part v ∧ b = part ++ rest
  malformed : ∀ {b why}, f b = .malformed why → ∀ s, f (b ++ s) = .malformed why

namespace Scan

theorem andThen_eq_done {s : Scan α} {f : α → Bytes → Scan β} {v : β} {rest : Bytes} :
    s.andThen f = .done v rest ↔ ∃ a mid, s = .done a mid ∧ f a mid = .done v rest := by
  cases s <;> simp [andThen]

theorem andThen_eq_malformed {s : Scan α} {f : α → Bytes → Scan β} {why : Defect} :
    s.andThen f = .malformed why ↔
      s = .malformed why ∨ ∃ a mid, s = .done a mid ∧ f a mid = .malformed why := by
  cases s <;> simp [andThen]

end Scan

/-- A byte string is made of accepted bytes, or it breaks at the first one that is not. -/
theorem exists_break (accepted : UInt8 → Bool) (b : Bytes) :
    (∀ x ∈ b, accepted x = true) ∨
      ∃ xs c rest, b = xs ++ c :: rest ∧ (∀ x ∈ xs, accepted x = true) ∧ accepted c = false := by
  cases h : b.dropWhile accepted with
  | nil => exact .inl (List.dropWhile_eq_nil_iff.mp h)
  | cons c rest =>
      refine .inr ⟨b.takeWhile accepted, c, rest, ?_, fun x hx => List.mem_takeWhile_imp hx, ?_⟩
      · rw [← h, List.takeWhile_append_dropWhile]
      · have hc := List.head?_dropWhile_not accepted b
        rw [h] at hc
        exact hc

namespace Reads

variable {f : Bytes → Scan α} {R R' : Bytes → α → Prop}

/-- A value is read from the bytes that derive it, whatever follows. -/
theorem of_derived (hf : Reads f R) {part : Bytes} {v : α} (h : R part v) (s : Bytes) :
    f (part ++ s) = .done v s :=
  hf.done_iff.mpr ⟨part, h, rfl⟩

/-- At one place a reader finds one part only. -/
theorem unique (hf : Reads f R) {p q s t : Bytes} {v w : α} (hp : R p v) (hq : R q w)
    (h : p ++ s = q ++ t) : p = q ∧ v = w ∧ s = t := by
  have hv := hf.of_derived hp s
  rw [h, hf.of_derived hq t, Scan.done.injEq] at hv
  obtain ⟨rfl, rfl⟩ := hv
  exact ⟨List.append_cancel_right h, rfl, rfl⟩

/-- More bytes do not change what was read. -/
theorem append (hf : Reads f R) {b rest : Bytes} {v : α} (h : f b = .done v rest) (s : Bytes) :
    f (b ++ s) = .done v (rest ++ s) := by
  obtain ⟨part, hpart, rfl⟩ := hf.done_iff.mp h
  rw [List.append_assoc]
  exact hf.of_derived hpart (rest ++ s)

/-- The relation may be put in another form. -/
theorem congr (hf : Reads f R) (h : ∀ part v, R part v ↔ R' part v) : Reads f R' where
  done_iff := by
    intro b v rest
    rw [hf.done_iff]
    simp only [h]
  malformed := hf.malformed

/-- A reader that succeeds and takes nothing. -/
theorem pure (v : α) : Reads (Scan.done v) fun part w => part = [] ∧ w = v where
  done_iff := by
    intro b w rest
    simp only [Scan.done.injEq]
    constructor
    · rintro ⟨rfl, rfl⟩
      exact ⟨[], ⟨rfl, rfl⟩, rfl⟩
    · rintro ⟨part, ⟨rfl, rfl⟩, rfl⟩
      exact ⟨rfl, rfl⟩
  malformed := by
    intro b why h
    cases h

/-- A reader that always fails. -/
theorem fail (why : Defect) : Reads (fun _ => (Scan.malformed why : Scan α)) fun _ _ => False where
  done_iff := by
    intro b v rest
    simp
  malformed := by
    intro b why' h s
    exact h

theorem byte {g : UInt8 → Bytes → Scan α} {S : UInt8 → Bytes → α → Prop}
    (hg : ∀ c, Reads (g c) (S c)) :
    Reads (byFirst g) fun part v => ∃ c p, S c p v ∧ part = c :: p where
  done_iff := by
    intro b v rest
    cases b with
    | nil => simp [byFirst]
    | cons c b =>
        simp only [byFirst, (hg c).done_iff]
        constructor
        · rintro ⟨p, hp, rfl⟩
          exact ⟨c :: p, ⟨c, p, hp, rfl⟩, rfl⟩
        · rintro ⟨part, ⟨c', p, hp, rfl⟩, hb⟩
          obtain ⟨rfl, rfl⟩ := List.cons.inj hb
          exact ⟨p, hp, rfl⟩
  malformed := by
    intro b why h s
    cases b with
    | nil => cases h
    | cons c b => exact (hg c).malformed h s

/-- A reader that has already taken its first byte. -/
theorem afterByte (hf : Reads f R) (hne : ∀ v, ¬ R [] v) (c : UInt8) :
    Reads (fun b => f (c :: b)) fun part v => R (c :: part) v where
  done_iff := by
    intro b v rest
    rw [hf.done_iff]
    constructor
    · rintro ⟨part, hpart, hb⟩
      cases part with
      | nil => exact absurd hpart (hne v)
      | cons c' p =>
          obtain ⟨rfl, rfl⟩ := List.cons.inj hb
          exact ⟨p, hpart, rfl⟩
    · rintro ⟨p, hp, rfl⟩
      exact ⟨c :: p, hp, rfl⟩
  malformed := by
    intro b why h s
    exact hf.malformed h s

/-- A reader that takes the bytes up to the first one not accepted, and whose next step depends
on both. -/
theorem span (accepted : UInt8 → Bool) {g : Bytes → UInt8 → Bytes → Scan α}
    {S : Bytes → UInt8 → Bytes → α → Prop} (hg : ∀ xs c, Reads (g xs c) (S xs c))
    (hall : ∀ b, (∀ x ∈ b, accepted x = true) → f b = .incomplete)
    (hbreak : ∀ xs c rest, (∀ x ∈ xs, accepted x = true) → accepted c = false →
      f (xs ++ c :: rest) = g xs c rest) :
    Reads f fun part v => ∃ xs c p, (∀ x ∈ xs, accepted x = true) ∧ accepted c = false ∧
      S xs c p v ∧ part = xs ++ c :: p where
  done_iff := by
    intro b v rest
    constructor
    · intro h
      rcases exists_break accepted b with hb | ⟨xs, c, after, rfl, hxs, hc⟩
      · rw [hall b hb] at h
        cases h
      · rw [hbreak xs c after hxs hc] at h
        obtain ⟨p, hp, rfl⟩ := (hg xs c).done_iff.mp h
        exact ⟨xs ++ c :: p, ⟨xs, c, p, hxs, hc, hp, rfl⟩, by simp⟩
    · rintro ⟨part, ⟨xs, c, p, hxs, hc, hp, rfl⟩, rfl⟩
      rw [List.append_assoc, List.cons_append, hbreak xs c _ hxs hc]
      exact (hg xs c).of_derived hp rest
  malformed := by
    intro b why h s
    rcases exists_break accepted b with hb | ⟨xs, c, after, rfl, hxs, hc⟩
    · rw [hall b hb] at h
      cases h
    · rw [hbreak xs c after hxs hc] at h
      rw [List.append_assoc, List.cons_append, hbreak xs c _ hxs hc]
      exact (hg xs c).malformed h s

/-- One reader after another. -/
theorem andThen {g : α → Bytes → Scan β} {S : α → Bytes → β → Prop} (hf : Reads f R)
    (hg : ∀ a, Reads (g a) (S a)) :
    Reads (fun b => (f b).andThen g) fun part v => ∃ p a q, R p a ∧ S a q v ∧ part = p ++ q where
  done_iff := by
    intro b v rest
    rw [Scan.andThen_eq_done]
    constructor
    · rintro ⟨a, mid, ha, hv⟩
      obtain ⟨p, hp, rfl⟩ := hf.done_iff.mp ha
      obtain ⟨q, hq, rfl⟩ := (hg a).done_iff.mp hv
      exact ⟨p ++ q, ⟨p, a, q, hp, hq, rfl⟩, (List.append_assoc p q rest).symm⟩
    · rintro ⟨part, ⟨p, a, q, hp, hq, rfl⟩, rfl⟩
      rw [List.append_assoc]
      exact ⟨a, q ++ rest, hf.of_derived hp _, (hg a).of_derived hq rest⟩
  malformed := by
    intro b why h s
    rcases Scan.andThen_eq_malformed.mp h with hb | ⟨a, mid, ha, hw⟩
    · simp only [hf.malformed hb s, Scan.andThen]
    · rw [hf.append ha s]
      exact (hg a).malformed hw s

/-- What was read is turned into something else. -/
theorem map (hf : Reads f R) (g : α → β) :
    Reads (fun b => (f b).map g) fun part v => ∃ a, R part a ∧ v = g a :=
  (hf.andThen fun a => pure (g a)).congr fun part v => by
    constructor
    · rintro ⟨p, a, q, hp, ⟨rfl, rfl⟩, rfl⟩
      exact ⟨a, by simpa using hp, rfl⟩
    · rintro ⟨a, ha, rfl⟩
      exact ⟨part, a, [], ha, ⟨rfl, rfl⟩, by simp⟩

end Reads

end ShardProxy.Wire
