import Mathlib.Data.List.Basic
import ShardProxy.Routing.Table

/-!
# Owners of slots

To deal slots out or to give them back changes who owns those slots, and nothing else: every other
slot keeps its owner, and all of them keep their places.

* `Slots.mem_ownedBy` — the slots of a group;
* `Table.ownerAt?_eject`, `Table.ownerAt?_restore_of_mem` — whom slots belong to afterwards;
* `Slots.ext_owners` — slots in the same places with the same owners are the same.
-/

namespace ShardProxy.Routing

namespace Slots

variable {slots slots' : Slots} {i j : Nat} {indices : List Nat}

/-- The owner of one slot. -/
def ownerAt? (slots : Slots) (i : Nat) : Option GroupId := slots[i]?.bind (·.owner)

/-- Where the slots lie on the ring. -/
def positions (slots : Slots) : Array UInt32 := slots.map (·.position)

theorem size_eq_of_positions (h : slots.positions = slots'.positions) :
    slots.size = slots'.size := by
  simpa [positions] using congrArg Array.size h

/-- Slots differ only in their places and their owners. -/
theorem ext_owners (hplaces : slots.positions = slots'.positions)
    (howners : ∀ i < slots.size, slots.ownerAt? i = slots'.ownerAt? i) : slots = slots' := by
  have hsize := size_eq_of_positions hplaces
  refine Array.ext hsize fun i hi hi' => ?_
  have hplace : slots[i].position = slots'[i].position := by
    have hmapped := congrArg (·[i]?) hplaces
    simpa [positions, hi, hi'] using hmapped
  have howner : slots[i].owner = slots'[i].owner := by
    simpa [ownerAt?, hi, hi'] using howners i hi
  exact congrArg₂ Slot.mk howner hplace

theorem lt_size_of_ownerAt? {g : GroupId} (h : slots.ownerAt? i = some g) : i < slots.size := by
  obtain ⟨slot, hslot, _⟩ := Option.bind_eq_some_iff.mp h
  exact (Array.getElem?_eq_some_iff.mp hslot).1

theorem mem_ownedBy {g : GroupId} : i ∈ slots.ownedBy g ↔ slots.ownerAt? i = some g := by
  unfold ownedBy
  rw [List.mem_filter, List.mem_range, beq_iff_eq]
  exact ⟨And.right, fun h => ⟨lt_size_of_ownerAt? h, h⟩⟩

theorem pairwise_ownedBy (slots : Slots) (g : GroupId) : (slots.ownedBy g).Pairwise (· < ·) :=
  List.pairwise_lt_range.filter _

/-! ## One slot -/

theorem getElem?_setOwner (slots : Slots) (i j : Nat) (owner : Option GroupId) :
    (slots.setOwner i owner)[j]? =
      if i = j then slots[j]?.map fun s => { s with owner } else slots[j]? :=
  Array.getElem?_modify

@[simp]
theorem size_setOwner (slots : Slots) (i : Nat) (owner : Option GroupId) :
    (slots.setOwner i owner).size = slots.size :=
  Array.size_modify

theorem positions_setOwner (slots : Slots) (i : Nat) (owner : Option GroupId) :
    (slots.setOwner i owner).positions = slots.positions := by
  refine Array.ext_getElem? fun j => ?_
  unfold positions
  rw [Array.getElem?_map, Array.getElem?_map, getElem?_setOwner]
  split
  · rw [Option.map_map]
    rfl
  · rfl

theorem ownerAt?_setOwner_self (owner : Option GroupId) (hi : i < slots.size) :
    (slots.setOwner i owner).ownerAt? i = owner := by
  unfold ownerAt?
  rw [getElem?_setOwner, if_pos rfl, Array.getElem?_eq_getElem hi]
  rfl

theorem ownerAt?_setOwner_ne (owner : Option GroupId) (hne : i ≠ j) :
    (slots.setOwner i owner).ownerAt? j = slots.ownerAt? j := by
  unfold ownerAt?
  rw [getElem?_setOwner, if_neg hne]

/-! ## Many slots -/

theorem positions_assign (slots : Slots) (indices : List Nat) (g : GroupId) :
    (slots.assign indices g).positions = slots.positions :=
  List.foldlRecOn (motive := fun s => Slots.positions s = slots.positions) indices _ rfl
    fun s hs i _ => (positions_setOwner s i _).trans hs

theorem positions_redistribute (slots : Slots) (indices : List Nat) (targets : List GroupId) :
    (slots.redistribute indices targets).positions = slots.positions :=
  List.foldlRecOn (motive := fun s => Slots.positions s = slots.positions) indices.zipIdx _ rfl
    fun s hs e _ => (positions_setOwner s e.1 _).trans hs

theorem ownerAt?_assign_of_not_mem (slots : Slots) (g : GroupId) (hi : i ∉ indices) :
    (slots.assign indices g).ownerAt? i = slots.ownerAt? i := by
  refine List.foldlRecOn (motive := fun s => Slots.ownerAt? s i = slots.ownerAt? i) indices _ rfl
    fun s hs j hj => ?_
  have hne : j ≠ i := fun h => hi (h ▸ hj)
  exact (ownerAt?_setOwner_ne _ hne).trans hs

theorem ownerAt?_assign_of_mem (g : GroupId) (hi : i < slots.size) (hmem : i ∈ indices) :
    (slots.assign indices g).ownerAt? i = some g := by
  induction indices generalizing slots with
  | nil => cases hmem
  | cons j indices ih =>
      show ((slots.setOwner j (some g)).assign indices g).ownerAt? i = some g
      by_cases hlater : i ∈ indices
      · exact ih (by rwa [size_setOwner]) hlater
      · obtain rfl : i = j := (List.mem_cons.mp hmem).resolve_right hlater
        rw [ownerAt?_assign_of_not_mem _ _ hlater, ownerAt?_setOwner_self _ hi]

theorem ownerAt?_redistribute_of_not_mem (slots : Slots) (targets : List GroupId)
    (hi : i ∉ indices) : (slots.redistribute indices targets).ownerAt? i = slots.ownerAt? i := by
  refine List.foldlRecOn (motive := fun s => Slots.ownerAt? s i = slots.ownerAt? i) indices.zipIdx _
    rfl fun s hs e he => ?_
  have hne : e.1 ≠ i := by
    rintro rfl
    exact hi (List.fst_mem_of_mem_zipIdx he)
  exact (ownerAt?_setOwner_ne _ hne).trans hs

/-- Each slot has the owner that is set for it, if one is set but once. -/
theorem ownerAt?_foldl_setOwner {entries : List (Nat × Nat)} {e : Nat × Nat}
    (owner : Nat × Nat → Option GroupId) (honce : (entries.map (·.1)).Nodup) (he : e ∈ entries)
    (hi : e.1 < slots.size) :
    (entries.foldl (fun s e => setOwner s e.1 (owner e)) slots).ownerAt? e.1 = owner e := by
  induction entries generalizing slots with
  | nil => cases he
  | cons first rest ih =>
      rw [List.map_cons, List.nodup_cons] at honce
      rcases List.mem_cons.mp he with rfl | hlater
      · refine List.foldlRecOn (motive := fun s => Slots.ownerAt? s e.1 = owner e) rest _
          (ownerAt?_setOwner_self _ hi) fun s hs e' he' => ?_
        have hne : e'.1 ≠ e.1 := fun h => honce.1 (h ▸ List.mem_map_of_mem he')
        exact (ownerAt?_setOwner_ne _ hne).trans hs
      · exact ih honce.2 hlater (by rwa [size_setOwner])

/-- Slots are dealt out in turn, the first one to the first target. -/
theorem ownerAt?_redistribute {n : Nat} (targets : List GroupId) (honce : indices.Nodup)
    (hn : indices[n]? = some i) (hi : i < slots.size) :
    (slots.redistribute indices targets).ownerAt? i = targets[n % targets.length]? := by
  have hmem : (i, n) ∈ indices.zipIdx := List.mem_zipIdx_iff_getElem?.mpr hn
  have hkeys : (indices.zipIdx.map (·.1)).Nodup := by
    rw [List.zipIdx_map_fst]
    exact honce
  exact ownerAt?_foldl_setOwner (fun e => targets[e.2 % targets.length]?) hkeys hmem hi

end Slots

namespace Table

variable {t : Table} {i : Nat} {g : GroupId} {indices : List Nat} (targets : List GroupId)

/-- A slot is set if there is such a slot. -/
theorem setSlot_eq_some_iff {t' : Table} :
    t.setSlot i g = some t' ↔
      i < t.slots.size ∧ t' = { t with slots := t.slots.assign [i] g } := by
  unfold setSlot
  split
  · rename_i hi
    rw [Option.some.injEq, and_iff_right hi, eq_comm]
  · rename_i hi
    exact iff_of_false (by simp) fun h => hi h.1

theorem mem_eject : i ∈ (t.eject g targets).1 ↔ t.ownerAt? i = some g := Slots.mem_ownedBy

/-- Only slots change. -/
theorem eject_eq (t : Table) (g : GroupId) :
    (t.eject g targets).2 = { t with slots := (t.eject g targets).2.slots } := by
  unfold eject
  dsimp only
  split <;> rfl

theorem positions_eject (t : Table) (g : GroupId) :
    (t.eject g targets).2.slots.positions = t.slots.positions := by
  unfold eject
  dsimp only
  split
  · rfl
  · exact Slots.positions_redistribute _ _ _

/-- Only slots of the group itself are taken away. -/
theorem ownerAt?_eject (h : t.ownerAt? i ≠ some g) :
    (t.eject g targets).2.ownerAt? i = t.ownerAt? i := by
  unfold eject
  dsimp only
  split
  · rfl
  · exact Slots.ownerAt?_redistribute_of_not_mem _ _ (mt Slots.mem_ownedBy.mp h)

/-- The slots that are taken go to the targets in turn. -/
theorem ownerAt?_eject_of_taken {n : Nat} (h : (t.eject g targets).1[n]? = some i) :
    (t.eject g targets).2.ownerAt? i = targets[n % targets.length]? := by
  have hmem : i ∈ t.slots.ownedBy g := List.mem_of_getElem? h
  have hsome : (t.slots.ownedBy g).isEmpty = false :=
    List.isEmpty_eq_false_iff.mpr (List.ne_nil_of_mem hmem)
  have hi : i < t.slots.size := Slots.lt_size_of_ownerAt? (Slots.mem_ownedBy.mp hmem)
  have honce : (t.slots.ownedBy g).Nodup := (Slots.pairwise_ownedBy _ _).imp Nat.ne_of_lt
  unfold eject ownedBy
  dsimp only
  rw [hsome]
  exact Slots.ownerAt?_redistribute targets honce h hi

theorem positions_restore (t : Table) (indices : List Nat) (g : GroupId) :
    (t.restore indices g).slots.positions = t.slots.positions :=
  Slots.positions_assign _ _ _

theorem ownerAt?_restore_of_mem (hi : i < t.slots.size) (hmem : i ∈ indices) :
    (t.restore indices g).ownerAt? i = some g :=
  Slots.ownerAt?_assign_of_mem g hi hmem

theorem ownerAt?_restore_of_not_mem (hi : i ∉ indices) :
    (t.restore indices g).ownerAt? i = t.ownerAt? i :=
  Slots.ownerAt?_assign_of_not_mem _ _ hi

/-- What was taken from a group and is given back leaves no trace. -/
theorem restore_eject (t : Table) (g : GroupId) :
    (t.eject g targets).2.restore (t.eject g targets).1 g = t := by
  have hplaces : ((t.eject g targets).2.restore (t.eject g targets).1 g).slots.positions =
      t.slots.positions := (positions_restore _ _ _).trans (positions_eject targets t g)
  have hslots : ((t.eject g targets).2.restore (t.eject g targets).1 g).slots = t.slots := by
    refine Slots.ext_owners hplaces fun i hi => ?_
    by_cases htaken : i ∈ (t.eject g targets).1
    · have hi' : i < (t.eject g targets).2.slots.size :=
        Slots.size_eq_of_positions (positions_restore _ _ _) ▸ hi
      exact (ownerAt?_restore_of_mem hi' htaken).trans ((mem_eject targets).mp htaken).symm
    · have hother : t.ownerAt? i ≠ some g := fun h => htaken ((mem_eject targets).mpr h)
      exact (ownerAt?_restore_of_not_mem htaken).trans (ownerAt?_eject targets hother)
  calc (t.eject g targets).2.restore (t.eject g targets).1 g
      = { (t.eject g targets).2 with slots := t.slots } := by rw [← hslots]; rfl
    _ = t := by rw [eject_eq]

end Table

end ShardProxy.Routing
