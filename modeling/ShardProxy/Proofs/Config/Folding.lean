import ShardProxy.Proofs.Config.Router
import ShardProxy.Proofs.Routing.Mapped
import ShardProxy.Proofs.Text.Decoding
import ShardProxy.Proxy.Admin

/-!
# Folding mappings back

What an operator maps at run time is written out in the form of a configuration. Put in the place of
the mappings of the configuration that the proxy was started with, it gives a configuration of the
table as it is now: hash mappings for all slots cover whatever the ranges of groups say, and groups
are found again by their names.

* `Config.check_fold` — what is left to check where only mappings are new;
* `Config.groupIndex?_of_getElem?` — a checked group is found by its name;
* `Config.exists_assigned` — hash mappings of every slot decide who owns it;
* `Config.Live` — the tables that a configuration comes to by mapping;
* `Config.Live.check_folded`, `Config.Live.exists_routingTable_folded` — what becomes of the
  configuration with the mappings of such a table.
-/

namespace ShardProxy

open Routing
open Text (utf8 decodeLossy)

/-! ## Keys that are read as text -/

namespace Routing

/-- The group of the last key that reads as this one. -/
def Overrides.readAs? (o : Overrides) (key : Bytes) : Option GroupId :=
  (o.entries.reverse.find? fun e => utf8 (decodeLossy e.1) == key).map (·.2)

/-- Where all keys are texts, each of them reads as itself only. -/
theorem Overrides.readAs?_of_texts {o : Overrides} (h : o.Sorted)
    (htexts : ∀ e ∈ o.entries, ∃ s, utf8 s = e.1) (key : Bytes) : o.readAs? key = o.get? key := by
  unfold readAs? get?
  cases hfind : o.entries.reverse.find? fun e => utf8 (decodeLossy e.1) == key with
  | none =>
      cases hget : o.entries.lookup key with
      | none => rfl
      | some g =>
          have hmem := mem_of_lookup hget
          have hreads := List.find?_eq_none.mp hfind _ (List.mem_reverse.mpr hmem)
          rw [Text.utf8_decodeLossy.mpr (htexts _ hmem)] at hreads
          simp at hreads
  | some e =>
      have hmem : e ∈ o.entries := List.mem_reverse.mp (List.mem_of_find?_eq_some hfind)
      have hreads : utf8 (decodeLossy e.1) = key := by simpa using List.find?_some hfind
      rw [Text.utf8_decodeLossy.mpr (htexts e hmem)] at hreads
      subst hreads
      exact (lookup_of_mem h.nodup_keys hmem).symm

/-- Directly, slots are the same if there are as many and each has the same owner. -/
theorem Table.slotOwner_congr {t : Table} (t' : Table) (hne : t.slots ≠ #[])
    (hmode : t.mode = .direct) (hmode' : t'.mode = .direct) (hhash : t'.hash = t.hash)
    (hsize : t'.slots.size = t.slots.size)
    (howners : ∀ i < t.slots.size, t'.ownerAt? i = t.ownerAt? i) (key : Bytes) :
    (t'.slotIndex? key).bind t'.ownerAt? = (t.slotIndex? key).bind t.ownerAt? := by
  have hpos : 0 < t.slots.size := Array.size_pos_iff.mpr hne
  have hne' : t'.slots ≠ #[] := Array.size_pos_iff.mp (hsize.symm ▸ hpos)
  rw [slotIndex?_direct hne' hmode', slotIndex?_direct hne hmode, hhash, hsize, Option.bind_some,
    Option.bind_some]
  exact howners _ (Nat.mod_lt _ hpos)

end Routing

namespace Config

variable {c : Config} {t : Table}

/-- A configuration with other mappings. -/
def fold (c : Config) (m : MappingState) : Config :=
  { c with hashMappings := m.hashMappings, keyMappings := m.keyMappings }

/-! ## All checks -/

theorem KeyMapping.check_eq_ok {m : KeyMapping} :
    m.check c = .ok () ↔ m.key ≠ "" ∧ ∃ g, c.groupIndex? m.group = some g := by
  unfold KeyMapping.check
  rw [seq_eq_ok, require_eq_ok, require_eq_ok, bne_iff_ne, Option.isSome_iff_exists]

/-- Directly, the mappings are looked at in two of the checks. -/
theorem check_eq_ok (hmode : c.routing.mode = .direct) : c.check = .ok () ↔
    c.server.check = .ok () ∧ c.routing.check = .ok () ∧
    require (!c.groups.isEmpty) "At least one group is required" = .ok () ∧
    checkGroups c.routing.mode [] c.groups = .ok () ∧ (∃ owners, c.slotAssignments = .ok owners) ∧
    (∀ m ∈ c.keyMappings, m.check c = .ok ()) ∧ c.groupOption.check = .ok () ∧
    c.logging.check = .ok () := by
  unfold check
  rw [seq_eq_ok, seq_eq_ok, seq_eq_ok, seq_eq_ok, if_pos hmode, bind_eq_ok, exists_and_right,
    seq_eq_ok, seq_eq_ok, forM_eq_ok]

/-- With other mappings a checked configuration passes its checks if each slot has an owner and each
mapped key is a text that is not empty, with a group that there is. -/
theorem check_fold (hcheck : c.check = .ok ()) (hmode : c.routing.mode = .direct)
    (m : MappingState) :
    (c.fold m).check = .ok () ↔ (∃ owners, (c.fold m).slotAssignments = .ok owners) ∧
      ∀ k ∈ m.keyMappings, k.key ≠ "" ∧ ∃ g, c.groupIndex? k.group = some g := by
  obtain ⟨hserver, hrouting, hsome, hgroups, -, -, hoption, hlogging⟩ :=
    (check_eq_ok hmode).mp hcheck
  rw [check_eq_ok (c := c.fold m) hmode]
  constructor
  · rintro ⟨-, -, -, -, howners, hkeys, -, -⟩
    exact ⟨howners, fun k hk => KeyMapping.check_eq_ok.mp (hkeys k hk)⟩
  · rintro ⟨howners, hkeys⟩
    exact ⟨hserver, hrouting, hsome, hgroups, howners,
      fun k hk => KeyMapping.check_eq_ok.mpr (hkeys k hk), hoption, hlogging⟩

/-! ## Names -/

theorem nodup_of_checkGroups {mode : Mode} {names : List String} {gs : List Group}
    (h : checkGroups mode names gs = .ok ()) :
    (∀ g ∈ gs, g.name ∉ names) ∧ (gs.map (·.name)).Nodup := by
  induction gs generalizing names with
  | nil => exact ⟨fun g hg => absurd hg List.not_mem_nil, List.nodup_nil⟩
  | cons first rest ih =>
      obtain ⟨hfirst, hrest⟩ := seq_eq_ok.mp h
      obtain ⟨-, hfirst⟩ := seq_eq_ok.mp hfirst
      have hnew := require_eq_ok.mp (seq_eq_ok.mp hfirst).1
      obtain ⟨hnames, hnodup⟩ := ih hrest
      refine ⟨List.forall_mem_cons.mpr ⟨by simpa using hnew, fun g hg hmem => ?_⟩, ?_⟩
      · exact hnames g hg (List.mem_cons_of_mem _ hmem)
      · rw [List.map_cons, List.nodup_cons, List.mem_map]
        refine ⟨?_, hnodup⟩
        rintro ⟨g, hg, hname⟩
        exact hnames g hg (hname ▸ List.mem_cons_self)

/-- Each group is found by its name. -/
theorem groupIndex?_of_getElem? (hgroups : checkGroups c.routing.mode [] c.groups = .ok ())
    {i : Nat} {g : Group} (hg : c.groups[i]? = some g) : c.groupIndex? g.name = some i := by
  obtain ⟨hi, rfl⟩ := List.getElem?_eq_some_iff.mp hg
  refine List.findIdx?_eq_some_iff_getElem.mpr ⟨hi, by simp, fun j hj hsame => ?_⟩
  have hj' : j < (c.groups.map (·.name)).length := by
    rw [List.length_map]
    omega
  have hi' : i < (c.groups.map (·.name)).length := by
    rwa [List.length_map]
  have hnames : (c.groups.map (·.name))[j] = (c.groups.map (·.name))[i] := by
    rw [List.getElem_map, List.getElem_map]
    exact beq_iff_eq.mp hsame
  have hindex := ((nodup_of_checkGroups hgroups).2.getElem_inj_iff).mp hnames
  omega

/-! ## Slots -/

variable {owner : Nat → Option Nat}

/-- **Mappings of every slot decide who owns it**, whatever the ranges of the groups say, as long as
these can be claimed. -/
theorem exists_assigned (hfits : ∀ g ∈ c.groups, g.Fits c.routing.slotCount)
    (hapart : c.groups.Pairwise Group.Apart)
    (hms : ∀ m ∈ c.hashMappings, m.slot < c.routing.slotCount ∧
      ∃ g, c.groupIndex? m.group = some g ∧ owner m.slot = some g)
    (hall : ∀ i < c.routing.slotCount, i ∈ c.hashMappings.map (·.slot)) :
    ∃ assigned, c.slotAssignments = .ok assigned ∧
      ∀ i < c.routing.slotCount, assigned[i]? = owner i := by
  obtain ⟨assigned, hassigned⟩ : ∃ assigned, c.slotAssignments = .ok assigned := by
    refine exists_slotAssignments_iff.mpr ⟨⟨hfits, hapart, fun m hm => ?_⟩, fun i hi => .inr ?_⟩
    · obtain ⟨hslot, g, hg, -⟩ := hms m hm
      exact ⟨exists_groupIndex?_iff.mp ⟨g, hg⟩, hslot⟩
    · exact List.mem_map.mp (hall i hi)
  refine ⟨assigned, hassigned, fun i hi => ?_⟩
  rw [getElem?_assigned hassigned hi]
  unfold owner?
  cases hlast : lastSlotMapping? c.hashMappings i with
  | none =>
      obtain ⟨m, hm, hslot⟩ := List.mem_map.mp (hall i hi)
      have hother := List.find?_eq_none.mp hlast m (List.mem_reverse.mpr hm)
      exact absurd (beq_iff_eq.mpr hslot) hother
  | some m =>
      obtain ⟨hslot, _, _, hmappings, -⟩ := lastSlotMapping?_eq_some_iff.mp hlast
      have hm : m ∈ c.hashMappings := by simp [hmappings]
      obtain ⟨-, g, hg, howner⟩ := hms m hm
      rw [← hslot, howner]
      exact hg

/-! ## Live tables -/

/-- A table of this configuration in direct mode, with slots and keys mapped in whatever way. -/
structure Live (c : Config) (t : Table) : Prop where
  mode : t.mode = .direct
  hash : Hash.Kind.ofName? c.routing.hash = some t.hash
  shards : t.shards = c.groups.map (·.shard)
  size : t.slots.size = c.routing.slotCount
  mapped : t.Mapped c.groups.length

namespace Live

theorem direct {hash : Hash.Kind} {owners : List Nat}
    (hhash : Hash.Kind.ofName? c.routing.hash = some hash)
    (howners : c.slotAssignments = .ok owners) :
    c.Live (.direct hash (c.groups.map (·.shard)) owners) := by
  obtain ⟨hlength, hknown⟩ := known_of_slotAssignments howners
  refine ⟨rfl, hhash, rfl, (Table.size_slots_direct _ _ _).trans hlength, fun i hi => ?_,
    fun e he => absurd he List.not_mem_nil, Overrides.sorted_empty⟩
  rw [Table.size_slots_direct] at hi
  have hlt : owners[i] < c.groups.length := hknown _ (List.getElem_mem hi)
  refine ⟨owners[i], hlt, ?_⟩
  rw [Table.ownerAt?_direct, List.getElem?_eq_getElem hi]
  intro g hg
  rw [List.length_map]
  exact hknown g hg

theorem addKeyMapping {t' : Table} {m : KeyMapping} (h : c.Live t)
    (hadd : Config.addKeyMapping t m = .ok t') : c.Live t' := by
  unfold Config.addKeyMapping at hadd
  split at hadd
  · cases hadd
  · rename_i g hg
    cases hadd
    rw [groupNamed?_eq_groupIndex? h.shards] at hg
    exact ⟨h.mode, h.hash, h.shards, h.size, h.mapped.addOverride _ (groupIndex?_lt hg)⟩

/-- The table that the proxy starts with. -/
theorem of_routingTable (hcheck : c.check = .ok ()) (hmode : c.routing.mode = .direct)
    (ht : c.routingTable = .ok t) : c.Live t := by
  obtain ⟨bare, hbare⟩ := (checked_of_check hcheck).exists_bare fun hring => by
    cases hmode.symm.trans hring
  rw [hbare.routingTable_eq] at ht
  refine of_foldlM (fun _ _ _ _ h hadd => h.addKeyMapping hadd) ?_ ht
  cases hbare with
  | direct _ hhash howners => exact .direct hhash howners
  | ring hring => cases hmode.symm.trans hring

theorem remapped {t' : Table} (h : c.Live t) (ht : t.Remapped t') : c.Live t' := by
  obtain ⟨edits, hedits, rfl⟩ := ht
  rw [h.shards, List.length_map] at hedits
  have halike : Table.Alike t (t.afterAll edits) := .afterAll t edits
  exact ⟨halike.mode.trans h.mode, halike.hash ▸ h.hash, halike.shards.trans h.shards,
    halike.size_eq.trans h.size, h.mapped.afterAll hedits⟩

/-! ## Mappings that are written out -/

/-- Groups are written by names that lead back to them. -/
theorem groupIndex?_groupName? {g : GroupId} {name : String} (h : c.Live t)
    (hgroups : checkGroups c.routing.mode [] c.groups = .ok ())
    (hname : t.groupName? g = some name) : c.groupIndex? name = some g := by
  unfold Table.groupName? at hname
  rw [h.shards, List.getElem?_map, Option.map_map] at hname
  obtain ⟨group, hgroup, rfl⟩ := Option.map_eq_some_iff.mp hname
  exact groupIndex?_of_getElem? hgroups hgroup

theorem exists_groupName? {g : GroupId} (h : c.Live t) (hg : g < c.groups.length) :
    ∃ name, t.groupName? g = some name := by
  unfold Table.groupName?
  rw [h.shards, List.getElem?_map, List.getElem?_eq_getElem hg]
  exact ⟨_, rfl⟩

/-- A mapping is written of each slot that has an owner, and names that owner. -/
theorem mem_hashMappings {m : HashMapping} : m ∈ (Proxy.mappingState t).hashMappings ↔
    ∃ g, t.ownerAt? m.slot = some g ∧ t.groupName? g = some m.group := by
  have hslot : ∀ i name, (some name, i) ∈ t.slotOwners.zipIdx ↔
      ∃ g, t.ownerAt? i = some g ∧ t.groupName? g = some name := by
    intro i name
    rw [List.mem_zipIdx_iff_getElem?]
    show (t.slots.toList.map fun s => s.owner.bind t.groupName?)[i]? = some (some name) ↔
      ∃ g, t.slots[i]?.bind (·.owner) = some g ∧ t.groupName? g = some name
    rw [List.getElem?_map, Array.getElem?_toList]
    cases t.slots[i]? with
    | none => exact ⟨nofun, fun ⟨_, h, _⟩ => by cases h⟩
    | some s => rw [Option.map_some, Option.some_inj, Option.bind_eq_some_iff, Option.bind_some]
  unfold Proxy.mappingState
  dsimp only
  rw [List.mem_filterMap, ← hslot]
  constructor
  · rintro ⟨⟨owner, slot⟩, hmem, hmap⟩
    obtain ⟨group, rfl, rfl⟩ := Option.map_eq_some_iff.mp hmap
    exact hmem
  · exact fun hmem => ⟨_, hmem, rfl⟩

/-- With its mappings written over those of the configuration, each slot has the owner that it has
in the table. -/
theorem exists_assigned_fold (h : c.Live t) (hcheck : c.check = .ok ())
    (hmode : c.routing.mode = .direct) :
    ∃ assigned, (c.fold (Proxy.mappingState t)).slotAssignments = .ok assigned ∧
      ∀ i < c.routing.slotCount, assigned[i]? = t.ownerAt? i := by
  obtain ⟨-, -, -, hgroups, ⟨_, howners⟩, -⟩ := (check_eq_ok hmode).mp hcheck
  have hfitting := (slotAssignments_eq_ok.mp howners).1
  refine exists_assigned hfitting.ranges hfitting.apart ?_ ?_
  · intro m hm
    obtain ⟨g, howner, hname⟩ := mem_hashMappings.mp hm
    refine ⟨?_, g, h.groupIndex?_groupName? hgroups hname, howner⟩
    obtain ⟨_, hslot, -⟩ := Option.bind_eq_some_iff.mp howner
    exact h.size ▸ (Array.getElem?_eq_some_iff.mp hslot).1
  · intro i hi
    obtain ⟨g, hg, howner⟩ := h.mapped.owned i (h.size.symm ▸ hi)
    obtain ⟨name, hname⟩ := h.exists_groupName? hg
    exact List.mem_map.mpr ⟨⟨i, name⟩, mem_hashMappings.mpr ⟨g, howner, hname⟩, rfl⟩

theorem mem_keyMappings {m : KeyMapping} (h : c.Live t)
    (hm : m ∈ (Proxy.mappingState t).keyMappings) :
    ∃ e ∈ t.overrides.entries, m.key = decodeLossy e.1 ∧ t.groupName? e.2 = some m.group := by
  obtain ⟨e, he, rfl⟩ := List.mem_map.mp hm
  obtain ⟨name, hname⟩ := h.exists_groupName? (h.mapped.placed e he)
  refine ⟨e, he, rfl, ?_⟩
  show t.groupName? e.2 = some ((t.groupName? e.2).getD "")
  rw [hname]
  rfl

/-- Folded back, the mappings pass the checks if no mapped key is empty. -/
theorem check_folded (h : c.Live t) (hcheck : c.check = .ok ()) (hmode : c.routing.mode = .direct) :
    (c.fold (Proxy.mappingState t)).check = .ok () ↔ ∀ e ∈ t.overrides.entries, e.1 ≠ [] := by
  obtain ⟨assigned, hassigned, -⟩ := h.exists_assigned_fold hcheck hmode
  obtain ⟨-, -, -, hgroups, -⟩ := (check_eq_ok hmode).mp hcheck
  rw [check_fold hcheck hmode]
  constructor
  · rintro ⟨-, hkeys⟩ e he hempty
    refine (hkeys _ (List.mem_map_of_mem he)).1 ?_
    exact Text.decodeLossy_eq_empty.mpr hempty
  · intro hkeys
    refine ⟨⟨assigned, hassigned⟩, fun m hm => ?_⟩
    obtain ⟨e, he, hkey, hname⟩ := h.mem_keyMappings hm
    refine ⟨?_, e.2, h.groupIndex?_groupName? hgroups hname⟩
    rw [hkey, Ne, Text.decodeLossy_eq_empty]
    exact hkeys e he

theorem lastMapping?_mappingState (t : Table) (key : Bytes) :
    lastMapping? (Proxy.mappingState t).keyMappings key =
      (t.overrides.entries.reverse.find? fun e => utf8 (decodeLossy e.1) == key).map
        fun e => ⟨decodeLossy e.1, (t.groupName? e.2).getD ""⟩ := by
  unfold lastMapping? Proxy.mappingState
  rw [← List.map_reverse, List.find?_map]
  rfl

/-- The mapping of a key that counts is the last one that reads as it. -/
theorem bind_lastMapping? (h : c.Live t)
    (hgroups : checkGroups c.routing.mode [] c.groups = .ok ()) (key : Bytes) :
    (lastMapping? (Proxy.mappingState t).keyMappings key).bind (c.groupIndex? ·.group) =
      t.overrides.readAs? key := by
  rw [lastMapping?_mappingState]
  unfold Overrides.readAs?
  cases hfind : t.overrides.entries.reverse.find? fun e => utf8 (decodeLossy e.1) == key with
  | none => rfl
  | some e =>
      have hmem : e ∈ t.overrides.entries := List.mem_reverse.mp (List.mem_of_find?_eq_some hfind)
      obtain ⟨name, hname⟩ := h.exists_groupName? (h.mapped.placed e hmem)
      show c.groupIndex? ((t.groupName? e.2).getD "") = some e.2
      rw [hname]
      exact h.groupIndex?_groupName? hgroups hname

/-- Folded back, the mappings lead every key where the table leads it, as far as keys are texts. Any
other key is written as the text that it reads as, and it is this text that is mapped then. -/
theorem exists_routingTable_folded (h : c.Live t) (hcheck : c.check = .ok ())
    (hmode : c.routing.mode = .direct) :
    ∃ t', (c.fold (Proxy.mappingState t)).routingTable = .ok t' ∧ ∀ key,
      t'.resolve key = (t.overrides.readAs? key).or ((t.slotIndex? key).bind t.ownerAt?) := by
  obtain ⟨assigned, hassigned, howners⟩ := h.exists_assigned_fold hcheck hmode
  obtain ⟨-, -, -, hgroups, -⟩ := (check_eq_ok hmode).mp hcheck
  have hbare : Bare (c.fold (Proxy.mappingState t))
      (.direct t.hash (c.groups.map (·.shard)) assigned) := .direct hmode h.hash hassigned
  have hnamed : ∀ m ∈ (Proxy.mappingState t).keyMappings, ∃ g, c.groupIndex? m.group = some g := by
    intro m hm
    obtain ⟨e, -, -, hname⟩ := h.mem_keyMappings hm
    exact ⟨e.2, h.groupIndex?_groupName? hgroups hname⟩
  obtain ⟨o, htable, hget⟩ := exists_overrides hnamed hbare.shards
  refine ⟨_, hbare.routingTable_eq.trans htable, fun key => ?_⟩
  have hoverride : o.get? key = t.overrides.readAs? key := by
    rw [hget, ← h.bind_lastMapping? hgroups]
    cases lastMapping? (Proxy.mappingState t).keyMappings key with
    | none => rfl
    | some m => rfl
  -- the slots are as before: as many, and each with its owner
  obtain ⟨hlength, hknown⟩ := known_of_slotAssignments hassigned
  have hsize : (Table.direct t.hash (c.groups.map (·.shard)) assigned).slots.size = t.slots.size :=
    (Table.size_slots_direct _ _ _).trans (hlength.trans h.size.symm)
  have hslot : ∀ i < t.slots.size,
      (Table.direct t.hash (c.groups.map (·.shard)) assigned).ownerAt? i = t.ownerAt? i := by
    intro i hi
    rw [Table.ownerAt?_direct, howners i (h.size ▸ hi)]
    intro g hg
    rw [List.length_map]
    exact hknown g hg
  have hpos : 0 < c.routing.slotCount := (checked_of_check hcheck).slotCount hmode
  have hne : t.slots ≠ #[] := Array.size_pos_iff.mp (h.size.symm ▸ hpos)
  rw [Table.resolve_eq]
  refine congrArg₂ Option.or hoverride ?_
  exact Table.slotOwner_congr { Table.direct _ _ assigned with overrides := o } hne h.mode rfl rfl
    hsize hslot key

end Live

end Config

end ShardProxy
