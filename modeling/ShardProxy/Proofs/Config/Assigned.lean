import ShardProxy.Proofs.Config.Claiming

/-!
# Assigned slots

When every slot of a table has an owner, and who it is, said without the order in which ranges are
claimed and mappings put over them.

* `Config.Assignable` — ranges and mappings that go together and leave no slot over;
* `Config.Owns` — who owns a slot;
* `Config.known_of_slotAssignments` — each slot is assigned to a group that there is;
* `Config.slots_assigned_iff` — when there is an assignment, and which one.
-/

namespace ShardProxy.Config

variable {c : Config}

/-! ## What an assignment is -/

/-- A group is the first one of its name. -/
def FirstNamed (c : Config) (name : String) (i : Nat) : Prop :=
  (∃ g, c.groups[i]? = some g ∧ g.name = name) ∧
    ∀ j < i, ∀ g, c.groups[j]? = some g → g.name ≠ name

/-- Who owns a slot: the group that its last mapping names, or where it has no mapping the only group
whose range it lies in. -/
inductive Owns (c : Config) (slot i : Nat) : Prop where
  | mapped {earlier later : List HashMapping} {m : HashMapping}
      (mappings : c.hashMappings = earlier ++ m :: later) (here : m.slot = slot)
      (last : ∀ m' ∈ later, m'.slot ≠ slot) (named : c.FirstNamed m.group i)
  | ranged (unmapped : ∀ m ∈ c.hashMappings, m.slot ≠ slot)
      (claims : ∃ g, c.groups[i]? = some g ∧ g.claims slot = true)
      (only : ∀ j g, c.groups[j]? = some g → g.claims slot = true → j = i)

/-- Ranges and mappings go together and leave no slot over. -/
structure Assignable (c : Config) : Prop extends c.Fitting where
  covered : ∀ slot < c.routing.slotCount,
    (∃ g ∈ c.groups, g.claims slot = true) ∨ ∃ m ∈ c.hashMappings, m.slot = slot

theorem groupIndex?_eq_some_iff {name : String} {i : Nat} :
    c.groupIndex? name = some i ↔ c.FirstNamed name i := by
  unfold groupIndex? FirstNamed
  rw [List.findIdx?_eq_some_iff_getElem]
  constructor
  · rintro ⟨hi, hname, hbefore⟩
    refine ⟨⟨_, List.getElem?_eq_getElem hi, beq_iff_eq.mp hname⟩, fun j hj g hg hsame => ?_⟩
    obtain ⟨_, rfl⟩ := List.getElem?_eq_some_iff.mp hg
    exact hbefore j hj (beq_iff_eq.mpr hsame)
  · rintro ⟨⟨g, hg, hname⟩, hbefore⟩
    obtain ⟨hi, rfl⟩ := List.getElem?_eq_some_iff.mp hg
    exact ⟨hi, beq_iff_eq.mpr hname, fun j hj hsame =>
      hbefore j hj _ (List.getElem?_eq_getElem _) (beq_iff_eq.mp hsame)⟩

theorem lastSlotMapping?_eq_some_iff {ms : List HashMapping} {slot : Nat} {m : HashMapping} :
    lastSlotMapping? ms slot = some m ↔ m.slot = slot ∧
      ∃ earlier later, ms = earlier ++ m :: later ∧ ∀ m' ∈ later, m'.slot ≠ slot := by
  unfold lastSlotMapping?
  rw [List.find?_eq_some_iff_append, beq_iff_eq]
  refine and_congr_right fun _ => ?_
  constructor
  · rintro ⟨later, earlier, hms, hlater⟩
    refine ⟨earlier.reverse, later.reverse, ?_, fun m' hm' => ?_⟩
    · rw [← List.reverse_reverse ms, hms]
      simp
    · simpa using hlater m' (List.mem_reverse.mp hm')
  · rintro ⟨earlier, later, rfl, hlater⟩
    refine ⟨later.reverse, earlier.reverse, by simp, fun m' hm' => ?_⟩
    simpa using hlater m' (List.mem_reverse.mp hm')

/-- Where no two ranges have a slot in common, the first group that claims one is the only one. -/
theorem findIdx?_claims_eq_some_iff {gs : List Group} (hapart : gs.Pairwise Group.Apart)
    {slot i : Nat} : gs.findIdx? (·.claims slot) = some i ↔
      (∃ g, gs[i]? = some g ∧ g.claims slot = true) ∧
        ∀ j g, gs[j]? = some g → g.claims slot = true → j = i := by
  rw [List.findIdx?_eq_some_iff_getElem]
  constructor
  · rintro ⟨hi, hclaims, hbefore⟩
    refine ⟨⟨_, List.getElem?_eq_getElem hi, hclaims⟩, fun j g hg hclaims' => ?_⟩
    obtain ⟨hj, rfl⟩ := List.getElem?_eq_some_iff.mp hg
    rcases Nat.lt_trichotomy j i with hlt | heq | hgt
    · exact absurd hclaims' (hbefore j hlt)
    · exact heq
    · have hfree := List.pairwise_iff_getElem.mp hapart i j hi hj hgt slot hclaims
      exact absurd hclaims' (by rw [hfree]; exact Bool.false_ne_true)
  · rintro ⟨⟨g, hg, hclaims⟩, honly⟩
    obtain ⟨hi, rfl⟩ := List.getElem?_eq_some_iff.mp hg
    refine ⟨hi, hclaims, fun j hj hclaims' => ?_⟩
    have hsame := honly j _ (List.getElem?_eq_getElem (by omega)) hclaims'
    omega

theorem owner?_eq_some_iff (hapart : c.groups.Pairwise Group.Apart) {slot i : Nat} :
    c.owner? slot = some i ↔ c.Owns slot i := by
  unfold owner?
  constructor
  · intro h
    split at h
    · rename_i m hlast
      obtain ⟨hslot, _, _, hms, hlater⟩ := lastSlotMapping?_eq_some_iff.mp hlast
      exact .mapped hms hslot hlater (groupIndex?_eq_some_iff.mp h)
    · rename_i hnone
      obtain ⟨hclaims, honly⟩ := (findIdx?_claims_eq_some_iff hapart).mp h
      refine .ranged (fun m hm => ?_) hclaims honly
      simpa using List.find?_eq_none.mp hnone m (List.mem_reverse.mpr hm)
  · intro h
    cases h with
    | mapped hms hslot hlater hnamed =>
        rw [lastSlotMapping?_eq_some_iff.mpr ⟨hslot, _, _, hms, hlater⟩]
        exact groupIndex?_eq_some_iff.mpr hnamed
    | ranged hunmapped hclaims honly =>
        have hnone : lastSlotMapping? c.hashMappings slot = none := by
          refine List.find?_eq_none.mpr fun m hm => ?_
          simpa using hunmapped m (List.mem_reverse.mp hm)
        rw [hnone]
        exact (findIdx?_claims_eq_some_iff hapart).mpr ⟨hclaims, honly⟩

/-- A slot has an owner if it lies in a range or is named by a mapping. -/
theorem Fitting.exists_owner?_iff (h : c.Fitting) {slot : Nat} : (∃ i, c.owner? slot = some i) ↔
    (∃ g ∈ c.groups, g.claims slot = true) ∨ ∃ m ∈ c.hashMappings, m.slot = slot := by
  have hmapped : (lastSlotMapping? c.hashMappings slot).isSome = true ↔
      ∃ m ∈ c.hashMappings, m.slot = slot := by
    unfold lastSlotMapping?
    rw [List.find?_isSome]
    simp
  have hranged : (c.groups.findIdx? (·.claims slot)).isSome = true ↔
      ∃ g ∈ c.groups, g.claims slot = true := by
    rw [List.findIdx?_isSome, List.any_eq_true]
  rw [← hmapped, ← hranged, ← Option.isSome_iff_exists]
  unfold owner?
  cases hlast : lastSlotMapping? c.hashMappings slot with
  | none => simp
  | some m =>
      -- a mapping names a group that there is
      have hmem : m ∈ c.hashMappings := List.mem_reverse.mp (List.mem_of_find?_eq_some hlast)
      have hnamed := Option.isSome_iff_exists.mpr
        (exists_groupIndex?_iff.mpr (h.mappings m hmem).1)
      simp [hnamed]

theorem exists_map_some {α : Type} {xs : List (Option α)} (h : ∀ x ∈ xs, ∃ a, x = some a) :
    ∃ as : List α, as.map some = xs := by
  induction xs with
  | nil => exact ⟨[], rfl⟩
  | cons x xs ih =>
      obtain ⟨⟨a, rfl⟩, hxs⟩ := List.forall_mem_cons.mp h
      obtain ⟨as, rfl⟩ := ih hxs
      exact ⟨a :: as, rfl⟩

theorem exists_slotAssignments_iff :
    (∃ assigned, c.slotAssignments = .ok assigned) ↔ c.Assignable := by
  constructor
  · rintro ⟨assigned, h⟩
    obtain ⟨hfitting, hall⟩ := slotAssignments_eq_ok.mp h
    refine ⟨hfitting, fun slot hslot => hfitting.exists_owner?_iff.mp ?_⟩
    have hmem : c.owner? slot ∈ assigned.map some := by
      rw [hall]
      exact List.mem_map_of_mem (List.mem_range.mpr hslot)
    obtain ⟨i, -, hi⟩ := List.mem_map.mp hmem
    exact ⟨i, hi.symm⟩
  · rintro ⟨hfitting, hcovered⟩
    obtain ⟨assigned, hall⟩ : ∃ assigned : List Nat,
        assigned.map some = (List.range c.routing.slotCount).map c.owner? := by
      refine exists_map_some fun owner howner => ?_
      obtain ⟨slot, hslot, rfl⟩ := List.mem_map.mp howner
      exact hfitting.exists_owner?_iff.mpr (hcovered slot (List.mem_range.mp hslot))
    exact ⟨assigned, slotAssignments_eq_ok.mpr ⟨hfitting, hall⟩⟩

/-- Each slot is assigned to a group that there is. -/
theorem known_of_slotAssignments {assigned : List Nat} (h : c.slotAssignments = .ok assigned) :
    assigned.length = c.routing.slotCount ∧ ∀ g ∈ assigned, g < c.groups.length := by
  have hall := (slotAssignments_eq_ok.mp h).2
  have hlength : assigned.length = c.routing.slotCount := by
    simpa using congrArg List.length hall
  refine ⟨hlength, fun g hg => ?_⟩
  obtain ⟨slot, hslot, rfl⟩ := List.getElem_of_mem hg
  have howner : c.owner? slot = some assigned[slot] := by
    rw [← getElem?_assigned h (hlength ▸ hslot), List.getElem?_eq_getElem hslot]
  unfold owner? at howner
  split at howner
  · exact groupIndex?_lt howner
  · exact (List.findIdx?_eq_some_iff_getElem.mp howner).1

/-- The order of the groups is of no account. -/
theorem Assignable.perm {groups : List Group} (h : c.Assignable) (hperm : groups.Perm c.groups) :
    { c with groups }.Assignable where
  ranges g hg := h.ranges g (hperm.mem_iff.mp hg)
  apart := h.apart.perm hperm.symm Group.Apart.symm
  mappings m hm := by
    obtain ⟨⟨g, hg, hname⟩, hslot⟩ := h.mappings m hm
    exact ⟨⟨g, hperm.mem_iff.mpr hg, hname⟩, hslot⟩
  covered slot hslot := by
    refine (h.covered slot hslot).imp_left ?_
    rintro ⟨g, hg, hclaims⟩
    exact ⟨g, hperm.mem_iff.mpr hg, hclaims⟩

theorem exists_error_iff {ε α : Type} {x : Except ε α} :
    (∃ why, x = .error why) ↔ ¬ ∃ a, x = .ok a := by
  cases x <;> simp

/-- **Slots are assigned exactly if ranges and mappings go together and leave no slot over**, and
each of them to its one owner. Whether that fails does not depend on the order of the groups. -/
theorem slots_assigned_iff (c : Config) :
    ((∃ assigned, c.slotAssignments = .ok assigned) ↔ c.Assignable) ∧
      (∀ assigned, c.slotAssignments = .ok assigned →
        assigned.length = c.routing.slotCount ∧
          ∀ slot i, assigned[slot]? = some i ↔ slot < c.routing.slotCount ∧ c.Owns slot i) ∧
      ∀ groups, groups.Perm c.groups →
        ((∃ why, { c with groups }.slotAssignments = .error why) ↔
          ∃ why, c.slotAssignments = .error why) := by
  refine ⟨exists_slotAssignments_iff, fun assigned h => ?_, fun groups hperm => ?_⟩
  · have hlength : assigned.length = c.routing.slotCount := (known_of_slotAssignments h).1
    refine ⟨hlength, fun slot i => ?_⟩
    rw [← owner?_eq_some_iff (slotAssignments_eq_ok.mp h).1.apart]
    by_cases hslot : slot < c.routing.slotCount
    · rw [getElem?_assigned h hslot, and_iff_right hslot]
    · rw [List.getElem?_eq_none (by omega)]
      simp [hslot]
  · rw [exists_error_iff, exists_error_iff, exists_slotAssignments_iff,
      exists_slotAssignments_iff]
    exact not_congr ⟨fun h => h.perm (c := { c with groups }) hperm.symm, fun h => h.perm hperm⟩

/-- Two groups with ranges and one without, a slot that only a mapping names, and one that is mapped
twice. -/
def overlapped : Config :=
  { defaults with
    routing := { slotCount := 4 }
    groups :=
      [exampleGroup "a" [] (some (0, 1)), exampleGroup "b" [] none,
       exampleGroup "c" [] (some (2, 2))]
    hashMappings := [⟨1, "a"⟩, ⟨3, "b"⟩, ⟨1, "c"⟩] }

/-- The last mapping of the second slot counts, also with the groups in another order. -/
theorem slots_assigned_overlapped :
    overlapped.slotAssignments = .ok [0, 2, 2, 1] ∧ overlapped.Assignable ∧ overlapped.Owns 1 2 ∧
      overlapped.groups.reverse.Perm overlapped.groups ∧
      ¬ ∃ why, { overlapped with groups := overlapped.groups.reverse }.slotAssignments =
        .error why := by
  have hassigned : overlapped.slotAssignments = .ok [0, 2, 2, 1] := rfl
  have hperm := List.reverse_perm overlapped.groups
  obtain ⟨hiff, howners, horder⟩ := slots_assigned_iff overlapped
  refine ⟨hassigned, hiff.mp ⟨_, hassigned⟩, (((howners _ hassigned).2 1 2).mp rfl).2, hperm, ?_⟩
  rw [horder _ hperm, hassigned]
  rintro ⟨_, h⟩
  cases h

end ShardProxy.Config
