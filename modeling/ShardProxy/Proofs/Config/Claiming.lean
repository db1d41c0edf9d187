import ShardProxy.Proofs.Config.Checked

/-!
# Claiming slots

Ranges are claimed one group after the other, mappings are put over them one after the other, and
every slot must have an owner in the end. What comes out can be said of the whole configuration at
once: a mapped slot belongs to the group that its last mapping names, any other slot to the group
whose range it lies in.

* `Config.Group.Fits`, `Config.Group.Apart` — ranges that can be claimed, alone and together;
* `Config.claimRanges_eq_ok`, `Config.applyMappings_eq_ok` — the two passes, each said exactly;
* `Config.slotAssignments_eq_ok` — every slot has the owner that `Config.owner?` names.
-/

namespace ShardProxy.Config

variable {c : Config} {g : Group} {owners owners' : Owners}

/-! ## Ranges -/

namespace Group

/-- A slot lies in the range of a group. -/
def claims (g : Group) (slot : Nat) : Bool :=
  match g.hashMin, g.hashMax with
  | some lo, some hi => lo ≤ slot && slot ≤ hi
  | _, _ => false

/-- A group has a range within the table, or none at all. -/
structure Fits (count : Nat) (g : Group) : Prop where
  both : g.hashMin.isSome = g.hashMax.isSome
  inside : ∀ lo hi, g.hashMin = some lo → g.hashMax = some hi → lo ≤ hi ∧ hi < count

/-- The ranges of two groups have no slot in common. -/
def Apart (g g' : Group) : Prop := ∀ slot, g.claims slot = true → g'.claims slot = false

theorem Apart.symm {g g' : Group} (h : g.Apart g') : g'.Apart g := by
  intro slot hclaims
  by_contra hboth
  rw [h slot (by simpa using hboth)] at hclaims
  exact Bool.false_ne_true hclaims

theorem claims_iff {lo hi slot : Nat} (hlo : g.hashMin = some lo) (hhi : g.hashMax = some hi) :
    g.claims slot = true ↔ lo ≤ slot ∧ slot ≤ hi := by
  unfold claims
  rw [hlo, hhi]
  simp

theorem claims_of_none (hlo : g.hashMin = none) (slot : Nat) : g.claims slot = false := by
  unfold claims
  rw [hlo]

theorem Fits.lt_of_claims {count slot : Nat} (h : g.Fits count) (hclaims : g.claims slot = true) :
    slot < count := by
  unfold claims at hclaims
  split at hclaims
  · rename_i lo hi hlo hhi
    have hinside := h.inside lo hi hlo hhi
    simp only [Bool.and_eq_true, decide_eq_true_eq] at hclaims
    omega
  · exact absurd hclaims Bool.false_ne_true

/-- A range that fits is told by its bounds. -/
theorem range_eq_ok {count : Nat} {range : Option (Nat × Nat)} :
    g.range count = .ok range ↔ g.Fits count ∧
      ((range = none ∧ g.hashMin = none) ∨
        ∃ lo hi, range = some (lo, hi) ∧ g.hashMin = some lo ∧ g.hashMax = some hi) := by
  unfold Group.range
  constructor
  · intro h
    split at h
    · rename_i hlo hhi
      cases h
      exact ⟨⟨by rw [hlo, hhi], fun _ _ hsome => by rw [hlo] at hsome; cases hsome⟩,
        .inl ⟨rfl, hlo⟩⟩
    · rename_i lo hi hlo hhi
      split at h
      · cases h
      · rename_i hordered
        split at h
        · cases h
        · rename_i hinside
          cases h
          refine ⟨⟨by rw [hlo, hhi]; rfl, fun lo' hi' hlo' hhi' => ?_⟩,
            .inr ⟨lo, hi, rfl, hlo, hhi⟩⟩
          cases hlo.symm.trans hlo'
          cases hhi.symm.trans hhi'
          omega
    · cases h
  · rintro ⟨hfits, ⟨rfl, hlo⟩ | ⟨lo, hi, rfl, hlo, hhi⟩⟩
    · have hhi : g.hashMax = none := by
        rw [← Option.not_isSome_iff_eq_none, ← hfits.both, hlo]
        exact Bool.false_ne_true
      rw [hlo, hhi]
    · obtain ⟨hordered, hinside⟩ := hfits.inside lo hi hlo hhi
      rw [hlo, hhi]
      dsimp only
      rw [if_neg (by omega), if_neg (by omega)]

end Group

/-! ## Claiming -/

theorem claim_eq_ok {i slot : Nat} : c.claim i owners slot = .ok owners' ↔
    (∀ j, owners[slot]? ≠ some (some j)) ∧ owners' = owners.setIfInBounds slot (some i) := by
  unfold claim
  split
  · rename_i other hother
    exact ⟨fun h => (by cases h), fun ⟨hfree, _⟩ => absurd hother (hfree other)⟩
  · rename_i hfree
    constructor
    · intro h
      cases h
      exact ⟨hfree, rfl⟩
    · rintro ⟨-, rfl⟩
      rfl

/-- Gives several slots to one group. -/
def Owners.give (owners : Owners) (slots : List Nat) (i : Nat) : Owners :=
  slots.foldl (fun owners slot => owners.setIfInBounds slot (some i)) owners

theorem getElem?_give (owners : Owners) (slots : List Nat) (i slot : Nat) :
    (owners.give slots i)[slot]? =
      if slot ∈ slots then owners[slot]?.map fun _ => some i else owners[slot]? := by
  unfold Owners.give
  induction slots generalizing owners with
  | nil => rfl
  | cons s slots ih =>
      rw [List.foldl_cons, ih, Array.getElem?_setIfInBounds]
      by_cases hs : s = slot
      · subst hs
        by_cases hlt : s < owners.size <;> simp [hlt]
      · simp [hs, Ne.symm hs]

/-- Slots are claimed one by one if none of them has an owner before. -/
theorem claimAll_eq_ok {slots : List Nat} (hnodup : slots.Nodup) {i : Nat} :
    slots.foldlM (c.claim i) owners = .ok owners' ↔
      (∀ slot ∈ slots, ∀ j, owners[slot]? ≠ some (some j)) ∧ owners' = owners.give slots i := by
  induction slots generalizing owners with
  | nil =>
      constructor
      · intro h
        cases h
        exact ⟨fun slot hslot => absurd hslot List.not_mem_nil, rfl⟩
      · rintro ⟨-, rfl⟩
        rfl
  | cons s slots ih =>
      obtain ⟨hnew, hnodup⟩ := List.nodup_cons.mp hnodup
      -- the first claim changes none of the slots that are still to be claimed
      have hrest (slot : Nat) (hslot : slot ∈ slots) :
          (owners.setIfInBounds s (some i))[slot]? = owners[slot]? :=
        Array.getElem?_setIfInBounds_ne (by rintro rfl; exact hnew hslot)
      rw [List.foldlM_cons, bind_eq_ok, List.forall_mem_cons]
      constructor
      · rintro ⟨_, hclaim, h⟩
        obtain ⟨hfree, rfl⟩ := claim_eq_ok.mp hclaim
        obtain ⟨hfrees, rfl⟩ := (ih hnodup).mp h
        exact ⟨⟨hfree, fun slot hslot => hrest slot hslot ▸ hfrees slot hslot⟩, rfl⟩
      · rintro ⟨⟨hfree, hfrees⟩, rfl⟩
        refine ⟨_, claim_eq_ok.mpr ⟨hfree, rfl⟩, (ih hnodup).mpr ⟨fun slot hslot => ?_, rfl⟩⟩
        rw [hrest slot hslot]
        exact hfrees slot hslot

/-- Each slot belongs to the first of some groups whose range it lies in. -/
def ranged (c : Config) (gs : List Group) : Owners :=
  ((List.range c.routing.slotCount).map fun slot => gs.findIdx? (·.claims slot)).toArray

theorem getElem?_ranged (c : Config) (gs : List Group) (slot : Nat) :
    (c.ranged gs)[slot]? =
      if slot < c.routing.slotCount then some (gs.findIdx? (·.claims slot)) else none := by
  unfold ranged
  rw [List.getElem?_toArray, List.getElem?_map]
  split
  · rename_i hlt
    rw [List.getElem?_range hlt]
    rfl
  · rename_i hge
    rw [List.getElem?_eq_none (by simpa using hge)]
    rfl

theorem ranged_nil (c : Config) : c.ranged [] = Array.replicate c.routing.slotCount none := by
  simp [ranged, List.map_const']

/-- The slots of a range that fits are claimed in turn. -/
theorem claimRange_eq_claimAll (hfits : g.Fits c.routing.slotCount) (i : Nat) (owners : Owners) :
    ∃ slots : List Nat, slots.Nodup ∧ (∀ slot, slot ∈ slots ↔ g.claims slot = true) ∧
      c.claimRange owners (g, i) = slots.foldlM (c.claim i) owners := by
  unfold claimRange
  cases hlo : g.hashMin with
  | none =>
      refine ⟨[], List.nodup_nil, fun slot => by simp [Group.claims_of_none hlo], ?_⟩
      have hrange := Group.range_eq_ok.mpr ⟨hfits, .inl ⟨rfl, hlo⟩⟩
      rw [hrange]
      rfl
  | some lo =>
      obtain ⟨hi, hhi⟩ : ∃ hi, g.hashMax = some hi := by
        rw [← Option.isSome_iff_exists, ← hfits.both, hlo]
        rfl
      refine ⟨List.range' lo (hi + 1 - lo), List.nodup_range', fun slot => ?_, ?_⟩
      · rw [List.mem_range'_1, Group.claims_iff hlo hhi]
        omega
      · have hrange := Group.range_eq_ok.mpr ⟨hfits, .inr ⟨lo, hi, rfl, hlo, hhi⟩⟩
        rw [hrange]
        rfl

/-- The slots that a group claims are free if no group before claims them. -/
theorem free_iff_apart {gs : List Group} (hfits : g.Fits c.routing.slotCount) :
    (∀ slot, g.claims slot = true → ∀ j, (c.ranged gs)[slot]? ≠ some (some j)) ↔
      ∀ g' ∈ gs, g'.Apart g := by
  constructor
  · intro hfree g' hg'
    refine Group.Apart.symm fun slot hclaims => ?_
    have hnone : gs.findIdx? (·.claims slot) = none := by
      refine Option.eq_none_iff_forall_ne_some.mpr fun j hj => hfree slot hclaims j ?_
      rw [getElem?_ranged, if_pos (hfits.lt_of_claims hclaims), hj]
    exact List.findIdx?_eq_none_iff.mp hnone g' hg'
  · intro hapart slot hclaims j hj
    rw [getElem?_ranged, if_pos (hfits.lt_of_claims hclaims), Option.some_inj] at hj
    have hnone : gs.findIdx? (·.claims slot) = none :=
      List.findIdx?_eq_none_iff.mpr fun g' hg' => (hapart g' hg').symm slot hclaims
    rw [hnone] at hj
    cases hj

/-- Given to the next group, the slots that it claims make it one of the groups with a range. -/
theorem give_ranged {gs : List Group} {slots : List Nat}
    (hslots : ∀ slot, slot ∈ slots ↔ g.claims slot = true) (hapart : ∀ g' ∈ gs, g'.Apart g) :
    (c.ranged gs).give slots gs.length = c.ranged (gs ++ [g]) := by
  refine Array.ext_getElem? fun slot => ?_
  rw [getElem?_give, getElem?_ranged, getElem?_ranged, List.findIdx?_append,
    List.findIdx?_singleton]
  by_cases hclaims : g.claims slot = true
  · have hnone : gs.findIdx? (·.claims slot) = none :=
      List.findIdx?_eq_none_iff.mpr fun g' hg' => (hapart g' hg').symm slot hclaims
    rw [if_pos ((hslots slot).mpr hclaims), hnone, if_pos hclaims]
    split <;> simp
  · rw [if_neg (fun hmem => hclaims ((hslots slot).mp hmem)), if_neg hclaims]
    simp

/-- **One group claims its range** if this fits and has nothing in common with those before. -/
theorem claimRange_eq_ok {gs : List Group} :
    c.claimRange (c.ranged gs) (g, gs.length) = .ok owners' ↔
      g.Fits c.routing.slotCount ∧ (∀ g' ∈ gs, g'.Apart g) ∧ owners' = c.ranged (gs ++ [g]) := by
  have hexact (hfits : g.Fits c.routing.slotCount) :
      c.claimRange (c.ranged gs) (g, gs.length) = .ok owners' ↔
        (∀ g' ∈ gs, g'.Apart g) ∧ owners' = c.ranged (gs ++ [g]) := by
    obtain ⟨slots, hnodup, hslots, hclaim⟩ :=
      claimRange_eq_claimAll hfits gs.length (c.ranged gs)
    rw [hclaim, claimAll_eq_ok hnodup, ← free_iff_apart hfits]
    simp only [hslots]
    refine and_congr_right fun hfree => ?_
    rw [give_ranged hslots ((free_iff_apart hfits).mp hfree)]
  constructor
  · intro h
    obtain ⟨range, hrange, -⟩ := bind_eq_ok.mp h
    have hfits := (Group.range_eq_ok.mp hrange).1
    exact ⟨hfits, (hexact hfits).mp h⟩
  · rintro ⟨hfits, h⟩
    exact (hexact hfits).mpr h

/-- **All groups claim their ranges** if each of these fits and no two have a slot in common. -/
theorem claimRanges_eq_ok {gs rest : List Group} :
    (rest.zipIdx gs.length).foldlM c.claimRange (c.ranged gs) = .ok owners' ↔
      (∀ g ∈ rest, g.Fits c.routing.slotCount) ∧
        (∀ g ∈ gs, ∀ g' ∈ rest, g.Apart g') ∧ rest.Pairwise Group.Apart ∧
        owners' = c.ranged (gs ++ rest) := by
  induction rest generalizing gs with
  | nil =>
      rw [List.append_nil]
      constructor
      · intro h
        cases h
        simp
      · rintro ⟨-, -, -, rfl⟩
        rfl
  | cons g rest ih =>
      have hnext := @ih (gs ++ [g])
      rw [List.length_append, List.length_singleton, List.append_assoc, List.singleton_append]
        at hnext
      rw [List.zipIdx_cons, List.foldlM_cons, bind_eq_ok, List.forall_mem_cons,
        List.pairwise_cons]
      constructor
      · rintro ⟨_, hfirst, h⟩
        obtain ⟨hfits, hapart, rfl⟩ := claimRange_eq_ok.mp hfirst
        obtain ⟨hfit, haparts, hpair, rfl⟩ := hnext.mp h
        refine ⟨⟨hfits, hfit⟩, fun g' hg' => ?_, ⟨haparts g (by simp), hpair⟩, rfl⟩
        exact List.forall_mem_cons.mpr ⟨hapart g' hg', haparts g' (by simp [hg'])⟩
      · rintro ⟨⟨hfits, hfit⟩, haparts, ⟨hapart, hpair⟩, rfl⟩
        refine ⟨_, claimRange_eq_ok.mpr
          ⟨hfits, fun g' hg' => haparts g' hg' g List.mem_cons_self, rfl⟩,
          hnext.mpr ⟨hfit, fun g' hg' g'' hg'' => ?_, hpair, rfl⟩⟩
        rcases List.mem_append.mp hg' with hold | hnew
        · exact haparts g' hold g'' (List.mem_cons_of_mem _ hg'')
        · rw [List.mem_singleton.mp hnew]
          exact hapart g'' hg''

/-! ## Mapping -/

/-- The last mapping of a slot. -/
def lastSlotMapping? (ms : List HashMapping) (slot : Nat) : Option HashMapping :=
  ms.reverse.find? (·.slot == slot)

theorem lastSlotMapping?_cons (m : HashMapping) (ms : List HashMapping) (slot : Nat) :
    lastSlotMapping? (m :: ms) slot =
      (lastSlotMapping? ms slot).or (if m.slot = slot then some m else none) := by
  unfold lastSlotMapping?
  rw [List.reverse_cons, List.find?_append]
  congr 1
  by_cases hslot : m.slot = slot <;> simp [hslot]

theorem applyMapping_eq_ok {m : HashMapping} : c.applyMapping owners m = .ok owners' ↔
    (∃ i, c.groupIndex? m.group = some i) ∧ m.slot < c.routing.slotCount ∧
      owners' = owners.setIfInBounds m.slot (c.groupIndex? m.group) := by
  unfold applyMapping
  cases hnamed : c.groupIndex? m.group with
  | none => exact ⟨fun h => (by cases h), fun ⟨⟨_, h⟩, _⟩ => by cases h⟩
  | some i =>
      dsimp only
      split
      · rename_i hout
        exact ⟨fun h => (by cases h), fun ⟨_, hslot, _⟩ => absurd hslot (Nat.not_lt.mpr hout)⟩
      · rename_i hin
        constructor
        · intro h
          cases h
          exact ⟨⟨i, rfl⟩, Nat.not_le.mp hin, rfl⟩
        · rintro ⟨-, -, rfl⟩
          rfl

/-- Mapped slots belong to the group that their last mapping names, the others stay as they are. -/
def overlaid (c : Config) (ms : List HashMapping) (owners : Owners) : Owners :=
  owners.mapIdx fun slot owner =>
    match lastSlotMapping? ms slot with
    | some m => c.groupIndex? m.group
    | none => owner

theorem getElem?_overlaid (c : Config) (ms : List HashMapping) (owners : Owners) (slot : Nat) :
    (c.overlaid ms owners)[slot]? = owners[slot]?.map fun owner =>
      match lastSlotMapping? ms slot with
      | some m => c.groupIndex? m.group
      | none => owner :=
  Array.getElem?_mapIdx

theorem overlaid_cons (m : HashMapping) (ms : List HashMapping) (owners : Owners) :
    c.overlaid ms (owners.setIfInBounds m.slot (c.groupIndex? m.group)) =
      c.overlaid (m :: ms) owners := by
  refine Array.ext_getElem? fun slot => ?_
  rw [getElem?_overlaid, getElem?_overlaid, lastSlotMapping?_cons, Array.getElem?_setIfInBounds]
  by_cases hslot : m.slot = slot
  · subst hslot
    cases lastSlotMapping? ms m.slot <;> by_cases hlt : m.slot < owners.size <;> simp [hlt]
  · simp [hslot]

/-- **All mappings are put over the ranges** if each names a group and a slot of the table. -/
theorem applyMappings_eq_ok {ms : List HashMapping} :
    ms.foldlM c.applyMapping owners = .ok owners' ↔
      (∀ m ∈ ms, (∃ i, c.groupIndex? m.group = some i) ∧ m.slot < c.routing.slotCount) ∧
        owners' = c.overlaid ms owners := by
  induction ms generalizing owners with
  | nil =>
      have hsame : c.overlaid [] owners = owners := by
        refine Array.ext_getElem? fun slot => ?_
        rw [getElem?_overlaid]
        simp [lastSlotMapping?]
      rw [hsame]
      constructor
      · intro h
        cases h
        simp
      · rintro ⟨-, rfl⟩
        rfl
  | cons m ms ih =>
      rw [List.foldlM_cons, bind_eq_ok, List.forall_mem_cons]
      constructor
      · rintro ⟨_, hfirst, h⟩
        obtain ⟨hnamed, hslot, rfl⟩ := applyMapping_eq_ok.mp hfirst
        obtain ⟨hms, rfl⟩ := ih.mp h
        exact ⟨⟨⟨hnamed, hslot⟩, hms⟩, overlaid_cons m ms owners⟩
      · rintro ⟨⟨⟨hnamed, hslot⟩, hms⟩, rfl⟩
        exact ⟨_, applyMapping_eq_ok.mpr ⟨hnamed, hslot, rfl⟩,
          ih.mpr ⟨hms, (overlaid_cons m ms owners).symm⟩⟩

/-! ## All slots -/

/-- The group that a slot belongs to, if it belongs to one: a mapping wins over a range, and the last
mapping over those before. -/
def owner? (c : Config) (slot : Nat) : Option Nat :=
  match lastSlotMapping? c.hashMappings slot with
  | some m => c.groupIndex? m.group
  | none => c.groups.findIdx? (·.claims slot)

/-- All owners are known, and they are these. -/
theorem collect_eq_ok {ε : Type} {f : Option Nat × Nat → Except ε Nat}
    (hsome : ∀ g i, f (some g, i) = .ok g) (hnone : ∀ i g, f (none, i) ≠ .ok g)
    {xs : List (Option Nat)} {first : Nat} {gs : List Nat} :
    (xs.zipIdx first).mapM f = .ok gs ↔ gs.map some = xs := by
  induction xs generalizing first gs with
  | nil => exact ⟨fun h => (by cases h; rfl), fun h => (by cases List.map_eq_nil_iff.mp h; rfl)⟩
  | cons x xs ih =>
      rw [List.zipIdx_cons, List.mapM_cons, bind_eq_ok, List.map_eq_cons_iff]
      constructor
      · rintro ⟨g, hg, h⟩
        obtain ⟨gs', hgs', h⟩ := bind_eq_ok.mp h
        cases h
        refine ⟨g, gs', rfl, ?_, ih.mp hgs'⟩
        cases x with
        | none => exact absurd hg (hnone _ _)
        | some g' =>
            rw [hsome] at hg
            cases hg
            rfl
      · rintro ⟨g, gs', rfl, rfl, hgs'⟩
        exact ⟨g, hsome g _, bind_eq_ok.mpr ⟨gs', ih.mpr hgs', rfl⟩⟩

theorem exists_groupIndex?_iff {name : String} :
    (∃ i, c.groupIndex? name = some i) ↔ ∃ g ∈ c.groups, g.name = name := by
  rw [← Option.isSome_iff_exists]
  unfold groupIndex?
  rw [List.findIdx?_isSome, List.any_eq_true]
  simp

/-- Ranges and mappings go together. -/
structure Fitting (c : Config) : Prop where
  ranges : ∀ g ∈ c.groups, g.Fits c.routing.slotCount
  apart : c.groups.Pairwise Group.Apart
  mappings : ∀ m ∈ c.hashMappings,
    (∃ g ∈ c.groups, g.name = m.group) ∧ m.slot < c.routing.slotCount

theorem claimGroups_eq_ok {ranged : Owners} :
    c.groups.zipIdx.foldlM c.claimRange (Array.replicate c.routing.slotCount none) = .ok ranged ↔
      (∀ g ∈ c.groups, g.Fits c.routing.slotCount) ∧ c.groups.Pairwise Group.Apart ∧
        ranged = c.ranged c.groups := by
  have hall := @claimRanges_eq_ok c ranged [] c.groups
  rw [ranged_nil] at hall
  simpa using hall

theorem toList_overlaid (c : Config) :
    (c.overlaid c.hashMappings (c.ranged c.groups)).toList =
      (List.range c.routing.slotCount).map c.owner? := by
  refine List.ext_getElem? fun slot => ?_
  rw [Array.getElem?_toList, getElem?_overlaid, getElem?_ranged, List.getElem?_map]
  by_cases hlt : slot < c.routing.slotCount
  · rw [if_pos hlt, List.getElem?_range hlt]
    rfl
  · rw [if_neg hlt, List.getElem?_eq_none (by simpa using hlt)]
    rfl

/-- **Each slot is assigned to its owner**, where ranges and mappings go together and every slot has
one. -/
theorem slotAssignments_eq_ok {assigned : List Nat} : c.slotAssignments = .ok assigned ↔
    c.Fitting ∧ assigned.map some = (List.range c.routing.slotCount).map c.owner? := by
  unfold slotAssignments
  dsimp only
  rw [bind_eq_ok, ← toList_overlaid]
  constructor
  · rintro ⟨_, hranges, h⟩
    obtain ⟨hfits, hapart, rfl⟩ := claimGroups_eq_ok.mp hranges
    obtain ⟨_, hmappings, h⟩ := bind_eq_ok.mp h
    obtain ⟨hms, rfl⟩ := applyMappings_eq_ok.mp hmappings
    refine ⟨⟨hfits, hapart, fun m hm => (hms m hm).imp_left exists_groupIndex?_iff.mp⟩, ?_⟩
    exact (collect_eq_ok (fun _ _ => rfl) fun _ _ h => (by cases h)).mp h
  · rintro ⟨⟨hfits, hapart, hms⟩, hall⟩
    refine ⟨_, claimGroups_eq_ok.mpr ⟨hfits, hapart, rfl⟩,
      bind_eq_ok.mpr ⟨_, applyMappings_eq_ok.mpr ⟨fun m hm => ?_, rfl⟩, ?_⟩⟩
    · exact (hms m hm).imp_left exists_groupIndex?_iff.mpr
    · exact (collect_eq_ok (fun _ _ => rfl) fun _ _ h => (by cases h)).mpr hall

theorem getElem?_assigned {assigned : List Nat} (h : c.slotAssignments = .ok assigned) {slot : Nat}
    (hslot : slot < c.routing.slotCount) : assigned[slot]? = c.owner? slot := by
  have hentry := congrArg (·[slot]?) (slotAssignments_eq_ok.mp h).2
  simp only [List.getElem?_map, List.getElem?_range hslot, Option.map_some] at hentry
  obtain ⟨i, hi, howner⟩ := Option.map_eq_some_iff.mp hentry
  rw [hi, howner]

end ShardProxy.Config
