import ShardProxy.Proofs.Routing.Shape

/-!
# Mapping by hand

Operators give single slots to groups, and set and take away overrides. None of this leaves a slot
without an owner, or names a group that there is not.

* `Table.Edit.IsMapping`, `Table.Remapped` — the edits that mapping commands make, one and many;
* `Table.Mapped` — what a table keeps through all of them.
-/

namespace ShardProxy.Routing.Table

/-- An edit by hand, of a table of `n` groups. -/
def Edit.IsMapping (n : Nat) : Edit → Prop
  | .setSlot _ g | .addOverride _ g => g < n
  | .removeOverride _ => True
  | .eject .. | .restore .. => False

/-- The second table comes of the first by edits by hand. -/
def Remapped (t t' : Table) : Prop :=
  ∃ edits, (∀ edit ∈ edits, edit.IsMapping t.shards.length) ∧ t' = t.afterAll edits

theorem Remapped.refl (t : Table) : t.Remapped t := ⟨[], List.forall_mem_nil _, rfl⟩

/-- The same edit is made for each of some items. -/
theorem Remapped.foldl {α : Type} {t : Table} (f : α → Edit) (xs : List α)
    (hf : ∀ x ∈ xs, (f x).IsMapping t.shards.length) :
    t.Remapped (xs.foldl (fun t x => t.after (f x)) t) :=
  ⟨xs.map f, List.forall_mem_map.mpr hf, List.foldl_map.symm⟩

/-- Each slot and each override leads to one of `n` groups, and overrides are in order. -/
structure Mapped (n : Nat) (t : Table) : Prop where
  owned : ∀ i < t.slots.size, ∃ g < n, t.ownerAt? i = some g
  placed : ∀ e ∈ t.overrides.entries, e.2 < n
  sorted : t.overrides.Sorted

namespace Mapped

variable {n : Nat} {t : Table}

theorem setSlot (h : t.Mapped n) (i : Nat) {g : GroupId} (hg : g < n) :
    ((t.setSlot i g).getD t).Mapped n := by
  unfold Table.setSlot
  split
  · rename_i hi
    refine ⟨fun j hj => ?_, h.placed, h.sorted⟩
    have hsize : (t.slots.assign [i] g).size = t.slots.size :=
      Slots.size_eq_of_positions (Slots.positions_assign _ _ _)
    by_cases hsame : j ∈ [i]
    · obtain rfl := List.mem_singleton.mp hsame
      exact ⟨g, hg, Slots.ownerAt?_assign_of_mem g hi hsame⟩
    · obtain ⟨g', hg', howner⟩ := h.owned j (hsize ▸ hj)
      exact ⟨g', hg', (Slots.ownerAt?_assign_of_not_mem _ _ hsame).trans howner⟩
  · exact h

theorem addOverride (h : t.Mapped n) (key : Bytes) {g : GroupId} (hg : g < n) :
    (t.addOverride key g).Mapped n := by
  refine ⟨h.owned, fun e he => ?_, h.sorted.insert key g⟩
  rcases Overrides.mem_place he with rfl | he
  · exact hg
  · exact h.placed e he

theorem removeOverride (h : t.Mapped n) (key : Bytes) :
    ((t.removeOverride key).getD t).Mapped n := by
  rw [removeOverride_getD]
  exact ⟨h.owned, fun e he => h.placed e (List.mem_filter.mp he).1, h.sorted.erase key⟩

theorem after {edit : Edit} (h : t.Mapped n) (hedit : edit.IsMapping n) :
    (t.after edit).Mapped n := by
  cases edit with
  | setSlot i g => exact h.setSlot i hedit
  | addOverride key g => exact h.addOverride key hedit
  | removeOverride key => exact h.removeOverride key
  | eject | restore => exact hedit.elim

theorem afterAll {edits : List Edit} (h : t.Mapped n) (hedits : ∀ edit ∈ edits, edit.IsMapping n) :
    (t.afterAll edits).Mapped n := by
  induction edits generalizing t with
  | nil => exact h
  | cons edit edits ih =>
      obtain ⟨hedit, hedits⟩ := List.forall_mem_cons.mp hedits
      exact ih (h.after hedit) hedits

end Mapped

end ShardProxy.Routing.Table
