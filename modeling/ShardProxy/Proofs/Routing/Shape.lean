import ShardProxy.Proofs.Routing.Overrides
import ShardProxy.Proofs.Routing.Points

/-!
# The shape of a routing table

A table is edited while keys are looked up in it. Edits give slots to other groups and set overrides
for keys; no edit adds a slot, drops one or moves one. So the slot that a key hashes to stays the
same, and an owner that is read later is the owner of that slot.

* `Table.Edit`, `Table.afterAll` — what is done to a table, in any order;
* `Table.Alike` — what all edits keep;
* `Table.slotIndex?_direct`, `Table.slotIndex?_ring` — the slot of a key;
* `Table.shape_kept` — all of it, for every table that is built.
-/

namespace ShardProxy.Routing.Table

/-- What is done to a table at run time. -/
inductive Edit where
  | setSlot (i : Nat) (g : GroupId)
  | eject (g : GroupId) (targets : List GroupId)
  | restore (indices : List Nat) (g : GroupId)
  | addOverride (key : Bytes) (g : GroupId)
  | removeOverride (key : Bytes)

/-- The table after an edit. To set a slot that is not there, or to remove an override that is not
there, changes nothing. -/
def after (t : Table) : Edit → Table
  | .setSlot i g => (t.setSlot i g).getD t
  | .eject g targets => (t.eject g targets).2
  | .restore indices g => t.restore indices g
  | .addOverride key g => t.addOverride key g
  | .removeOverride key => (t.removeOverride key).getD t

def afterAll (t : Table) (edits : List Edit) : Table := edits.foldl after t

/-- The tables that the proxy starts with. -/
inductive Built : Table → Prop where
  | direct (hash : Hash.Kind) (shards : List Shard) (assignments : List GroupId) :
      Built (.direct hash shards assignments)
  | ring {hash : Hash.Kind} {shards : List Shard} {t : Table} :
      Table.ring hash shards = some t → Built t

variable {t t' t'' : Table}

/-- Two tables differ in the owners of their slots and in their overrides at most. -/
structure Alike (t t' : Table) : Prop where
  mode : t'.mode = t.mode
  hash : t'.hash = t.hash
  shards : t'.shards = t.shards
  positions : t'.slots.positions = t.slots.positions

namespace Alike

theorem refl (t : Table) : Alike t t := ⟨rfl, rfl, rfl, rfl⟩

theorem trans (h : Alike t t') (h' : Alike t' t'') : Alike t t'' :=
  ⟨h'.mode.trans h.mode, h'.hash.trans h.hash, h'.shards.trans h.shards,
    h'.positions.trans h.positions⟩

theorem size_eq (h : Alike t t') : t'.slots.size = t.slots.size :=
  Slots.size_eq_of_positions h.positions

theorem slots_ne (h : Alike t t') (hne : t.slots ≠ #[]) : t'.slots ≠ #[] := by
  have hpos := Array.size_pos_iff.mpr hne
  rw [← h.size_eq] at hpos
  exact Array.size_pos_iff.mp hpos

theorem ascending (h : Alike t t') (hring : t.slots.Ascending) : t'.slots.Ascending := by
  unfold Slots.Ascending
  rwa [h.positions]

theorem eject (t : Table) (g : GroupId) (targets : List GroupId) :
    Alike t (t.eject g targets).2 := by
  rw [eject_eq]
  exact ⟨rfl, rfl, rfl, positions_eject targets t g⟩

/-- One edit. -/
theorem after (t : Table) (edit : Edit) : Alike t (t.after edit) := by
  cases edit with
  | setSlot i g =>
      unfold Table.after setSlot
      dsimp only
      split
      · exact ⟨rfl, rfl, rfl, Slots.positions_assign _ _ _⟩
      · exact .refl t
  | eject g targets => exact .eject t g targets
  | restore indices g => exact ⟨rfl, rfl, rfl, positions_restore t indices g⟩
  | addOverride key g => exact ⟨rfl, rfl, rfl, rfl⟩
  | removeOverride key =>
      show Alike t ((t.removeOverride key).getD t)
      rw [removeOverride_getD]
      exact ⟨rfl, rfl, rfl, rfl⟩

/-- Any number of edits. -/
theorem afterAll (t : Table) (edits : List Edit) : Alike t (t.afterAll edits) := by
  induction edits generalizing t with
  | nil => exact .refl t
  | cons edit edits ih => exact (Alike.after t edit).trans (ih (t.after edit))

end Alike

/-- What a ring table is made of. -/
theorem ring_eq_some {hash : Hash.Kind} {shards : List Shard} (h : ring hash shards = some t) :
    ∃ made, Ring.points Hash.Md5.digest shards = some made ∧
      t = ⟨.ring, hash, shards, Ring.arrange made, .empty⟩ := by
  obtain ⟨slots, hslots, rfl⟩ := Option.map_eq_some_iff.mp h
  obtain ⟨made, hmade, rfl⟩ := Ring.buildWith_eq_some hslots
  exact ⟨made, hmade, rfl⟩

theorem Built.ascending (h : Built t) (hmode : t.mode = .ring) : t.slots.Ascending := by
  cases h with
  | direct => cases hmode
  | ring hring =>
      obtain ⟨made, -, rfl⟩ := ring_eq_some hring
      exact Ring.ascending_arrange made

/-! ## The slot of a key -/

/-- Directly, the slot is the hash modulo the number of slots. -/
theorem slotIndex?_direct (hne : t.slots ≠ #[]) (hmode : t.mode = .direct) (key : Bytes) :
    t.slotIndex? key = some ((t.hash.hash key).toNat % t.slots.size) := by
  have hslots : t.slots.isEmpty = false := by simpa using hne
  simp [slotIndex?, hslots, hmode]

/-- On a ring, the slot is the first point at or after the hash, or else the first point. -/
theorem slotIndex?_ring (hne : t.slots ≠ #[]) (hmode : t.mode = .ring)
    (hring : t.slots.Ascending) (key : Bytes) :
    t.slotIndex? key =
      some ((t.slots.findIdx? fun s => decide (t.ringHash key ≤ s.position)).getD 0) := by
  have hslots : t.slots.isEmpty = false := by simpa using hne
  simp [slotIndex?, hslots, hmode, Ring.lookup_eq hring]

theorem Alike.ringHash (h : Alike t t') (key : Bytes) : t'.ringHash key = t.ringHash key := by
  unfold Table.ringHash
  rw [h.shards, h.hash]

/-- Alike tables have each key in the same slot. -/
theorem Alike.slotIndex? (h : Alike t t') (key : Bytes) : t'.slotIndex? key = t.slotIndex? key := by
  have hempty : t'.slots.isEmpty = t.slots.isEmpty := by
    unfold Array.isEmpty
    rw [h.size_eq]
  unfold Table.slotIndex?
  rw [hempty, h.mode, h.hash, h.size_eq, h.ringHash, Ring.lookup_congr h.positions]

/-- The empty key and every key of a single group are in the first slot of a ring. -/
theorem slotIndex?_start {key : Bytes} (hne : t.slots ≠ #[]) (hmode : t.mode = .ring)
    (hring : t.slots.Ascending) (hstart : key = [] ∨ t.shards.length = 1) :
    t.slotIndex? key = some 0 := by
  have hzero : t.ringHash key = 0 := by
    rcases hstart with rfl | hone
    · rfl
    · simp [Table.ringHash, hone]
  have hfirst : t.slots.findIdx? (fun s => decide ((0 : UInt32) ≤ s.position)) = some 0 :=
    Array.findIdx?_eq_some_iff_getElem.mpr ⟨Array.size_pos_iff.mpr hne, by simp,
      fun j hj => absurd hj (Nat.not_lt_zero j)⟩
  rw [slotIndex?_ring hne hmode hring, hzero, hfirst]
  rfl

/-- Any other key is in the slot of its hash. -/
theorem slotIndex?_hashed {key : Bytes} (hne : t.slots ≠ #[]) (hmode : t.mode = .ring)
    (hring : t.slots.Ascending) (hkey : key ≠ []) (hmany : t.shards.length ≠ 1) :
    t.slotIndex? key =
      some ((t.slots.findIdx? fun s => decide (t.hash.hash key ≤ s.position)).getD 0) := by
  have hhash : t.ringHash key = t.hash.hash key := by
    simp [Table.ringHash, hkey, hmany]
  rw [slotIndex?_ring hne hmode hring, hhash]

theorem slotIndex?_lt (hne : t.slots ≠ #[]) (hring : t.mode = .ring → t.slots.Ascending)
    (key : Bytes) : ∃ i < t.slots.size, t.slotIndex? key = some i := by
  have hslots : t.slots.isEmpty = false := by simpa using hne
  cases hmode : t.mode with
  | direct =>
      refine ⟨_, Nat.mod_lt _ (Array.size_pos_iff.mpr hne), slotIndex?_direct hne hmode key⟩
  | ring =>
      refine ⟨_, Ring.lookup_lt (hring hmode) hne (t.ringHash key), ?_⟩
      simp [Table.slotIndex?, hslots, hmode]

/-- A look-up over three versions of a table: the overrides of the first, the slot from the second,
the owner in the third. -/
theorem Alike.resolveAcross (h : Alike t t') (h' : Alike t t'') (hne : t.slots ≠ #[])
    (hring : t.mode = .ring → t.slots.Ascending) {key : Bytes}
    (hkey : t.overrides.get? key = none) :
    ∃ i < t''.slots.size, t.slotIndex? key = some i ∧
      ({ t' with overrides := t.overrides }).resolveAcross t'' key = t''.ownerAt? i := by
  obtain ⟨i, hi, hslot⟩ := slotIndex?_lt hne hring key
  have hslot' : t'.slotIndex? key = some i := (h.slotIndex? key).trans hslot
  refine ⟨i, h'.size_eq ▸ hi, hslot, ?_⟩
  refine (resolveAcross_of_none ?_).trans ?_
  · exact hkey
  · show (t'.slotIndex? key).bind t''.ownerAt? = t''.ownerAt? i
    rw [hslot', Option.bind_some]

/-- **A table keeps its shape**, whatever edits are made: as many slots, each in its place, and
those of a ring in ascending order. So every key stays in its slot. Directly, that is its hash
modulo the number of slots; on a ring it is the first point at or after its hash, or the first of
all where there is none, and also for the empty key and where there is one group.

A look-up takes the overrides of one version, the slot of its key from a later one and the owner
from a later one still. The slot is one that is there, and its owner in the last version is the
answer for a key without an override. -/
theorem shape_kept (hbuilt : t.Built) (hne : t.slots ≠ #[]) (edits : List Edit) :
    let now := t.afterAll edits
    now.slots.size = t.slots.size ∧ now.slots.positions = t.slots.positions ∧
    (t.mode = .ring → now.slots.Ascending) ∧
    (∀ key, now.slotIndex? key = t.slotIndex? key) ∧
    (t.mode = .direct → ∀ key,
      now.slotIndex? key = some ((t.hash.hash key).toNat % t.slots.size)) ∧
    (t.mode = .ring → ∀ key,
      (key = [] ∨ t.shards.length = 1 → now.slotIndex? key = some 0) ∧
      (key ≠ [] → t.shards.length ≠ 1 → now.slotIndex? key =
        some ((now.slots.findIdx? fun s => decide (t.hash.hash key ≤ s.position)).getD 0))) ∧
    ∀ between later key, now.overrides.get? key = none →
      let placed := now.afterAll between
      let last := placed.afterAll later
      ∃ i < last.slots.size, now.slotIndex? key = some i ∧
        ({ placed with overrides := now.overrides }).resolveAcross last key = last.ownerAt? i := by
  intro now
  have hnow : Alike t now := .afterAll t edits
  have hne' : now.slots ≠ #[] := hnow.slots_ne hne
  have hsame (key : Bytes) : now.slotIndex? key = t.slotIndex? key :=
    hnow.slotIndex? key
  have hascending (hmode : t.mode = .ring) : now.slots.Ascending :=
    hnow.ascending (hbuilt.ascending hmode)
  have hring' (hmode : now.mode = .ring) : now.slots.Ascending :=
    hascending (hnow.mode.symm.trans hmode)
  refine ⟨hnow.size_eq, hnow.positions, hascending, hsame, ?_, ?_, ?_⟩
  · intro hmode key
    rw [hsame, slotIndex?_direct hne hmode]
  · intro hmode key
    have hmode' : now.mode = .ring := hnow.mode.trans hmode
    rw [← hnow.shards, ← hnow.hash]
    exact ⟨slotIndex?_start hne' hmode' (hascending hmode),
      slotIndex?_hashed hne' hmode' (hascending hmode)⟩
  · intro between later key hkey placed last
    have hplaced : Alike now placed := .afterAll now between
    exact hplaced.resolveAcross (hplaced.trans (.afterAll placed later)) hne' hring' hkey

/-- A ring of two groups, where the second one is ejected and a slot is set while the empty key is
looked up. -/
theorem shape_kept_pair :
    let edits := [.restore [0] 1, .addOverride [107] 1]
    ∃ t, ring .md5 [⟨"a", 1⟩, ⟨"b", 1⟩] = some t ∧
      let placed := (t.afterAll edits).afterAll [.eject 1 [0]]
      let last := placed.afterAll [.setSlot 0 1]
      t.Built ∧ t.slots ≠ #[] ∧ (t.afterAll edits).slots.Ascending ∧
        (t.afterAll edits).slotIndex? [] = some 0 ∧
        (t.afterAll edits).overrides.get? [] = none ∧
        ({ placed with overrides := (t.afterAll edits).overrides }).resolveAcross last [] =
          last.ownerAt? 0 := by
  intro edits
  let shards : List Shard := [⟨"a", 1⟩, ⟨"b", 1⟩]
  have hlength : shards.length < 2 ^ 26 := by decide
  have ht := Ring.ring_eq .md5 (Ring.countable_of_length hlength)
  refine ⟨_, ht, ?_⟩
  generalize hmade : Ring.made Hash.Md5.digest shards = made at ht ⊢
  intro placed last
  set t : Table := ⟨.ring, .md5, shards, Ring.arrange made, .empty⟩
  have hne : t.slots ≠ #[] := by
    refine Ring.arrange_ne_empty ?_
    rw [← hmade]
    exact Ring.made_ne_nil _ (by decide) (by decide)
  have hnone : (t.afterAll edits).overrides.get? [] = none := by
    show (Overrides.empty.insert [107] 1).get? [] = none
    decide
  obtain ⟨_, _, hascending, _, _, hring, hacross⟩ := shape_kept (.ring ht) hne edits
  have hzero := (hring rfl []).1 (.inl rfl)
  obtain ⟨i, _, hi, hresolved⟩ := hacross [.eject 1 [0]] [.setSlot 0 1] [] hnone
  obtain rfl : 0 = i := Option.some.inj (hzero.symm.trans hi)
  exact ⟨.ring ht, hne, hascending rfl, hzero, hnone, hresolved⟩

end ShardProxy.Routing.Table
