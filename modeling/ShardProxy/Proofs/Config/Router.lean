import ShardProxy.Proofs.Config.Assigned
import ShardProxy.Proofs.Config.Built
import ShardProxy.Proofs.Routing.Overrides
import ShardProxy.Proofs.Routing.Shape

/-!
# The router of a checked configuration

The checks and the construction look at the same fields in separate places. What passes the checks
can be built, and the table that is built leads every key to a group.

* `Table.Covered` — each slot of a table is owned, in either mode;
* `Config.exists_overrides` — the last mapping of a key counts;
* `Config.Bare` — the table before keys are mapped;
* `Config.router_of_check` — what is built of a checked configuration.
-/

namespace ShardProxy

/-! ## Tables whose slots are owned -/

namespace Routing.Table

/-- There are slots, and each is owned by a group that there is. -/
structure Covered (t : Table) : Prop where
  slots : t.slots ≠ #[]
  ascending : t.mode = .ring → t.slots.Ascending
  owned : ∀ i < t.slots.size, ∃ g < t.shards.length, t.ownerAt? i = some g

variable {t : Table} {hash : Hash.Kind} {shards : List Shard} {assignments : List GroupId}

/-- Directly, the owner of a slot is the group that it is assigned to. -/
theorem ownerAt?_direct (hash : Hash.Kind) (hknown : ∀ g ∈ assignments, g < shards.length)
    (i : Nat) : (direct hash shards assignments).ownerAt? i = assignments[i]? := by
  show ((assignments.mapIdx fun i g =>
    (⟨if g < shards.length then some g else none, i.toUInt32⟩ : Slot)).toArray[i]?).bind (·.owner) =
      assignments[i]?
  rw [List.getElem?_toArray, List.getElem?_mapIdx]
  cases hg : assignments[i]? with
  | none => rfl
  | some g =>
      have hlt := hknown g (List.mem_of_getElem? hg)
      show (if g < shards.length then some g else none) = some g
      exact if_pos hlt

@[simp] theorem size_slots_direct (hash : Hash.Kind) (shards : List Shard) (assignments : List GroupId) :
    (direct hash shards assignments).slots.size = assignments.length := by
  simp [direct, Slots.direct]

theorem covered_direct (hash : Hash.Kind) (hne : assignments ≠ [])
    (hknown : ∀ g ∈ assignments, g < shards.length) :
    (direct hash shards assignments).Covered := by
  have hsize := size_slots_direct hash shards assignments
  refine ⟨?_, fun hmode => (by cases hmode), fun i hi => ?_⟩
  · have hpos := List.length_pos_iff.mpr hne
    rw [← hsize] at hpos
    exact Array.size_pos_iff.mp hpos
  · rw [hsize] at hi
    refine ⟨assignments[i], hknown _ (List.getElem_mem hi), ?_⟩
    rw [ownerAt?_direct hash hknown, List.getElem?_eq_getElem hi]

theorem covered_ring (hash : Hash.Kind) (hne : shards ≠ []) (hlength : shards.length < 2 ^ 26)
    (hweights : ∀ s ∈ shards, s.weight ≠ 0) (ht : ring hash shards = some t) : t.Covered := by
  rw [Ring.ring_eq hash (Ring.countable_of_length hlength)] at ht
  cases ht
  refine ⟨Ring.arrange_ne_empty (Ring.made_ne_nil _ hne hweights),
    fun _ => Ring.ascending_arrange _, fun i hi => ?_⟩
  have hpoint := Ring.mem_arrange.mp (Array.getElem_mem hi)
  obtain ⟨g, hg, howner⟩ := Ring.owner_of_mem_made hpoint
  refine ⟨g, hg, ?_⟩
  unfold ownerAt?
  rw [Array.getElem?_eq_getElem hi]
  exact howner

/-- In a covered table each key has a slot with an owner. -/
theorem Covered.exists_owner (h : t.Covered) (key : Bytes) :
    ∃ i g, t.slotIndex? key = some i ∧ t.ownerAt? i = some g ∧ g < t.shards.length := by
  obtain ⟨i, hi, hslot⟩ := slotIndex?_lt h.slots h.ascending key
  obtain ⟨g, hg, howner⟩ := h.owned i hi
  exact ⟨i, g, hslot, howner, hg⟩

end Routing.Table

namespace Config

open Routing

variable {c : Config} {t : Table}

/-! ## Groups -/

theorem Group.Checked.exists_plan {mode : Mode} {g : Group} (h : g.Checked mode) (c : Config) :
    ∃ plan, g.plan c = .ok plan := by
  have hprofiles : ∃ profiles, g.hosts.mapM (Host.profile c) = .ok profiles := by
    apply exists_mapM_eq_ok
    intro host hhost
    obtain ⟨address, haddress⟩ := Option.isSome_iff_exists.mp (h.addresses host hhost)
    unfold Host.profile
    rw [haddress]
    exact ⟨_, rfl⟩
  obtain ⟨policy, hpolicy⟩ := Option.isSome_iff_exists.mp h.policy
  obtain ⟨profiles, hprofiles⟩ := hprofiles
  refine ⟨{ shard := g.shard, policy, hosts := profiles }, ?_⟩
  unfold Group.plan
  rw [hpolicy]
  exact bind_eq_ok.mpr ⟨profiles, hprofiles, rfl⟩

theorem Checked.exists_plans (h : c.Checked) : ∃ plans, c.groupPlans = .ok plans :=
  exists_mapM_eq_ok fun g hg => (h.each g hg).exists_plan c

/-! ## Key mappings -/

/-- The last mapping of a key. -/
def lastMapping? (ms : List KeyMapping) (key : Bytes) : Option KeyMapping :=
  ms.reverse.find? fun m => Text.utf8 m.key == key

theorem lastMapping?_cons (m : KeyMapping) (ms : List KeyMapping) (key : Bytes) :
    lastMapping? (m :: ms) key =
      (lastMapping? ms key).or (if Text.utf8 m.key = key then some m else none) := by
  unfold lastMapping?
  rw [List.reverse_cons, List.find?_append]
  congr 1
  by_cases hkey : Text.utf8 m.key = key <;> simp [hkey]

/-- Groups are found by the same names in the configuration and in the table. -/
theorem groupNamed?_eq_groupIndex? (ht : t.shards = c.groups.map (·.shard)) (name : String) :
    t.groupNamed? (Text.utf8 name) = c.groupIndex? name := by
  rw [Table.groupNamed?_utf8, ht, List.findIdx?_map]
  rfl

/-- **The last mapping of a key counts.** -/
theorem exists_overrides {ms : List KeyMapping}
    (hms : ∀ m ∈ ms, ∃ g, c.groupIndex? m.group = some g)
    (ht : t.shards = c.groups.map (·.shard)) :
    ∃ o, ms.foldlM addKeyMapping t = .ok { t with overrides := o } ∧
      ∀ key, o.get? key = match lastMapping? ms key with
        | some m => c.groupIndex? m.group
        | none => t.overrides.get? key := by
  induction ms generalizing t with
  | nil => exact ⟨t.overrides, rfl, fun key => rfl⟩
  | cons m ms ih =>
      obtain ⟨g, hg⟩ := hms m List.mem_cons_self
      have hadd : addKeyMapping t m = .ok (t.addOverride (Text.utf8 m.key) g) := by
        unfold addKeyMapping
        rw [groupNamed?_eq_groupIndex? ht, hg]
      obtain ⟨o, hrest, hget⟩ := @ih (t.addOverride (Text.utf8 m.key) g)
        (fun m hm => hms m (List.mem_cons_of_mem _ hm)) ht
      refine ⟨o, ?_, fun key => ?_⟩
      · rw [List.foldlM_cons]
        exact bind_eq_ok.mpr ⟨_, hadd, hrest⟩
      · rw [hget, lastMapping?_cons]
        cases lastMapping? ms key with
        | some m' => rfl
        | none =>
            -- no later mapping has this key, so that the override of this one is still there
            show (t.overrides.insert (Text.utf8 m.key) g).get? key = _
            by_cases hkey : Text.utf8 m.key = key
            · rw [if_pos hkey, ← hkey, Overrides.get?_insert_self]
              exact hg.symm
            · rw [if_neg hkey, Overrides.get?_insert_ne _ (Ne.symm hkey)]
              rfl

/-! ## The table -/

/-- The table of a configuration before keys are mapped. -/
inductive Bare (c : Config) : Table → Prop where
  | direct {hash : Hash.Kind} {owners : List Nat} (hmode : c.routing.mode = .direct)
      (hhash : Hash.Kind.ofName? c.routing.hash = some hash)
      (howners : c.slotAssignments = .ok owners) :
      Bare c (.direct hash (c.groups.map (·.shard)) owners)
  | ring {hash : Hash.Kind} {t : Table} (hmode : c.routing.mode = .ring)
      (hhash : Hash.Kind.ofName? c.routing.hash = some hash)
      (ht : Table.ring hash (c.groups.map (·.shard)) = some t) : Bare c t

/-- There are not too many groups for a ring. -/
theorem Checked.exists_bare (h : c.Checked)
    (hcount : c.routing.mode = .ring → c.groups.length < 2 ^ 26) : ∃ t, Bare c t := by
  obtain ⟨hash, hhash⟩ := h.hash
  cases hmode : c.routing.mode with
  | direct =>
      obtain ⟨owners, howners⟩ := h.owners hmode
      exact ⟨_, .direct hmode hhash howners⟩
  | ring =>
      have hlength : (c.groups.map (·.shard)).length < 2 ^ 26 := by
        rw [List.length_map]
        exact hcount hmode
      exact ⟨_, .ring hmode hhash (Ring.ring_eq hash (Ring.countable_of_length hlength))⟩

namespace Bare

theorem shards (h : Bare c t) : t.shards = c.groups.map (·.shard) := by
  cases h with
  | direct => rfl
  | ring _ _ ht =>
      obtain ⟨_, -, rfl⟩ := Table.ring_eq_some ht
      rfl

theorem overrides (h : Bare c t) : t.overrides = .empty := by
  cases h with
  | direct => rfl
  | ring _ _ ht =>
      obtain ⟨_, -, rfl⟩ := Table.ring_eq_some ht
      rfl

theorem mode (h : Bare c t) : t.mode = c.routing.mode := by
  cases h with
  | direct hmode => exact hmode.symm
  | ring hmode _ ht =>
      obtain ⟨_, -, rfl⟩ := Table.ring_eq_some ht
      exact hmode.symm

/-- Keys are mapped on the bare table. -/
theorem routingTable_eq (h : Bare c t) : c.routingTable = c.keyMappings.foldlM addKeyMapping t := by
  cases h with
  | direct hmode hhash howners =>
      unfold routingTable
      rw [hhash, hmode, howners]
      rfl
  | ring hmode hhash ht =>
      unfold routingTable
      rw [hhash, hmode]
      dsimp only
      rw [ht]
      rfl

theorem covered (h : Bare c t) (hc : c.Checked) (hcount : c.groups.length < 2 ^ 26) :
    t.Covered := by
  have hlength : (c.groups.map (·.shard)).length = c.groups.length := List.length_map _
  cases h with
  | direct hmode hhash howners =>
      obtain ⟨hassigned, hknown⟩ := known_of_slotAssignments howners
      refine Table.covered_direct _ ?_ (fun g hg => hlength ▸ hknown g hg)
      apply List.ne_nil_of_length_pos
      rw [hassigned]
      exact hc.slotCount hmode
  | ring hmode hhash ht =>
      refine Table.covered_ring _ (by simpa using hc.groups) (hlength ▸ hcount) ?_ ht
      intro s hs
      obtain ⟨g, hg, rfl⟩ := List.mem_map.mp hs
      exact (hc.each g hg).weight hmode

end Bare

/-- Directly, a key is in the slot of its hash, which belongs to the group it is assigned to. -/
theorem Bare.assigned {i g : Nat} {key : Bytes} (h : Bare c t) (hne : t.slots ≠ #[])
    (hmode : c.routing.mode = .direct) (hslot : t.slotIndex? key = some i)
    (howner : t.ownerAt? i = some g) :
    ∃ hash owners, Hash.Kind.ofName? c.routing.hash = some hash ∧ c.slotAssignments = .ok owners ∧
      owners.length = c.routing.slotCount ∧ i = (hash.hash key).toNat % owners.length ∧
      owners[i]? = some g := by
  cases h with
  | ring hring => exact absurd (hmode.symm.trans hring) (by decide)
  | @direct hash owners _ hhash howners =>
      obtain ⟨hassigned, hknown⟩ := known_of_slotAssignments howners
      refine ⟨hash, owners, hhash, howners, hassigned, ?_, ?_⟩
      · have hplace := Table.slotIndex?_direct hne rfl key
        rw [hslot, Table.size_slots_direct] at hplace
        exact Option.some.inj hplace
      · rw [← howner, Table.ownerAt?_direct]
        intro g hg
        rw [List.length_map]
        exact hknown g hg

/-- **A checked configuration makes a router.** Its groups and its table can be built. The groups
stand in their order, so that each is known by its position; and every key leads to one of them: to
the group of its last mapping, or where it has none to the owner of its slot. Directly, that is the
group that the slot is assigned to. -/
theorem router_of_check (hcheck : c.check = .ok ()) (hcount : c.groups.length < 2 ^ 26) :
    ∃ plans table, c.groupPlans = .ok plans ∧ c.routingTable = .ok table ∧
      plans.length = c.groups.length ∧
      (∀ i g, c.groups[i]? = some g → (∃ plan, plans[i]? = some plan ∧ g.plan c = .ok plan ∧
        plan.shard = g.shard) ∧ table.groupName? i = some g.name) ∧
      table.mode = c.routing.mode ∧ 0 < table.slotCount ∧
      ∀ key, ∃ g < c.groups.length, table.resolve key = some g ∧
        match lastMapping? c.keyMappings key with
        | some m => c.groupIndex? m.group = some g
        | none => ∃ i, table.slotIndex? key = some i ∧ table.ownerAt? i = some g ∧
            (c.routing.mode = .direct → ∃ hash owners,
              Hash.Kind.ofName? c.routing.hash = some hash ∧ c.slotAssignments = .ok owners ∧
              owners.length = c.routing.slotCount ∧ i = (hash.hash key).toNat % owners.length ∧
              owners[i]? = some g) := by
  have hc := checked_of_check hcheck
  obtain ⟨plans, hplans⟩ := hc.exists_plans
  obtain ⟨t, hbare⟩ := hc.exists_bare fun _ => hcount
  have hcovered := hbare.covered hc hcount
  obtain ⟨o, htable, hget⟩ := exists_overrides hc.mappings hbare.shards
  have hall := forall₂_of_mapM hplans
  have hlength : t.shards.length = c.groups.length := by rw [hbare.shards, List.length_map]
  refine ⟨plans, { t with overrides := o }, hplans, hbare.routingTable_eq.trans htable,
    hall.length_eq.symm, ?_, ?_, Array.size_pos_iff.mpr hcovered.slots, ?_⟩
  · intro i g hg
    obtain ⟨hi, rfl⟩ := List.getElem?_eq_some_iff.mp hg
    have hi' : i < plans.length := hall.length_eq ▸ hi
    have hplan : (c.groups[i]).plan c = .ok plans[i] := hall.get hi hi'
    refine ⟨⟨plans[i], List.getElem?_eq_getElem hi', hplan, (plan_eq_ok hplan).1⟩, ?_⟩
    show t.shards[i]?.map (·.name) = _
    rw [hbare.shards, List.getElem?_map, hg]
    rfl
  · exact hbare.mode
  · intro key
    have hoverride := hget key
    cases hlast : lastMapping? c.keyMappings key with
    | some m =>
        have hm : m ∈ c.keyMappings := List.mem_reverse.mp (List.mem_of_find?_eq_some hlast)
        obtain ⟨g, hg⟩ := hc.mappings m hm
        rw [hlast] at hoverride
        exact ⟨g, groupIndex?_lt hg, Table.resolveAcross_of_some (hoverride.trans hg), hg⟩
    | none =>
        obtain ⟨i, g, hslot, howner, hg⟩ := hcovered.exists_owner key
        refine ⟨g, hlength ▸ hg, ?_, i, hslot, howner,
          fun hmode => hbare.assigned hcovered.slots hmode hslot howner⟩
        rw [hlast, hbare.overrides] at hoverride
        apply (Table.resolveAcross_of_none hoverride).trans
        show (t.slotIndex? key).bind t.ownerAt? = some g
        rw [hslot, Option.bind_some, howner]

/-- Two groups share two slots, and a key is mapped twice. -/
def twofold : Config :=
  { defaults with
    routing := { slotCount := 2 }
    groups :=
      [exampleGroup "group0" [{ name := "redis0", addr := "10.0.1.20:6379" }] (some (0, 0)),
       exampleGroup "group1" [{ name := "redis1", addr := "10.0.1.21:6379" }] none]
    hashMappings := [⟨1, "group1"⟩]
    keyMappings := [⟨"k", "group1"⟩, ⟨"k", "group0"⟩] }

/-- The later mapping of the key counts, and the empty key is in the first slot. -/
theorem router_of_check_twofold :
    twofold.check = .ok () ∧ twofold.groups.length < 2 ^ 26 ∧
      ∃ table, twofold.routingTable = .ok table ∧ table.resolve (Text.utf8 "k") = some 0 ∧
        table.resolve [] = some 0 := by
  have hcheck : twofold.check = .ok () := rfl
  have hcount : twofold.groups.length < 2 ^ 26 := by decide
  obtain ⟨_, table, _, htable, _, _, _, _, hkeys⟩ := router_of_check hcheck hcount
  refine ⟨hcheck, hcount, table, htable, ?_, ?_⟩
  · obtain ⟨g, _, hresolve, hgroup⟩ := hkeys (Text.utf8 "k")
    have hlast : lastMapping? twofold.keyMappings (Text.utf8 "k") = some ⟨"k", "group0"⟩ := rfl
    rw [hlast] at hgroup
    have hzero : twofold.groupIndex? "group0" = some 0 := rfl
    rw [hresolve, ← hgroup]
    exact hzero
  · obtain ⟨g, _, hresolve, howner⟩ := hkeys []
    have hlast : lastMapping? twofold.keyMappings [] = none := rfl
    rw [hlast] at howner
    obtain ⟨i, _, _, hdirect⟩ := howner
    obtain ⟨hash, owners, hhash, howners, hlength, hi, hassigned⟩ := hdirect rfl
    obtain rfl : Hash.Kind.bytes = hash := Option.some.inj hhash
    have hboth : twofold.slotAssignments = .ok [0, 1] := rfl
    have hstart : (Hash.Kind.bytes.hash []).toNat % 2 = 0 := by decide +kernel
    rw [show owners.length = 2 from hlength, hstart] at hi
    rw [hboth] at howners
    cases howners
    rw [hresolve, ← hassigned, hi]
    rfl

end Config

end ShardProxy
