import ShardProxy.Proofs.Routing.Newcomer

/-!
# Weights on the ring

A group has as many points as its weight is worth: four for each whole digest of its share. Rounding
each share down loses less than one digest a group, and never makes a heavier group the smaller one.

* `Ring.Uncut` — no number outgrows 64 bits where points are counted;
* `Ring.countP_owner_made` — every group has the points that are counted for it;
* `Ring.sum_digests_le`, `Ring.lt_sum_digests` — what rounding down loses in all;
* `Ring.points_weighted` — how the points of a ring are dealt out, and how they lie.
-/

namespace ShardProxy.Routing.Ring

variable {digest : Bytes → Hash.Md5.Digest} {shards : List Shard} {s s' : Shard}

/-! ## Counting in 64 bits -/

/-- Where the points of a group are counted, no number outgrows 64 bits: not the sum of the weights,
nor the digests of all groups for this weight, nor the points. So each step gives the number that it
stands for, and the count is the share of the group. -/
structure Uncut (shards : List Shard) (s : Shard) : Prop where
  total : totalWeight shards = some (weightSum shards)
  product : s.weight.toNat * 40 * shards.length < 2 ^ 64
  points : pointCount s.weight (weightSum shards) shards.length =
    some (s.weight.toNat * 40 * shards.length / weightSum shards * 4)
  fits : s.weight.toNat * 40 * shards.length / weightSum shards * 4 < 2 ^ 64

theorem Countable.uncut (h : Countable shards) (hs : s ∈ shards) : Uncut shards s := by
  refine ⟨?_, h.product s hs, pointCount_eq (h.product s hs) (h.points s hs), h.points s hs⟩
  rw [totalWeight_eq, fit64_of_lt h.total]

/-! ## The points of each group -/

@[simp] theorem length_digestPoints (s : Shard) (g : GroupId) (i : Nat) :
    (digestPoints digest s g i).length = 4 := rfl

@[simp] theorem length_groupPoints (count : Nat) (s : Shard) (g : GroupId) :
    (groupPoints digest (count * 4) s g).length = count * 4 := by
  simp [groupPoints, pointsPerDigest, List.length_flatMap]

theorem countP_owner_groupPoints (count : Nat) (s : Shard) (g i : GroupId) :
    (groupPoints digest (count * 4) s g).countP (·.owner == some i) =
      if g = i then count * 4 else 0 := by
  split
  · rename_i hsame
    refine (List.countP_eq_length.mpr ?_).trans (length_groupPoints count s g)
    intro p hp
    rw [owner_of_mem_groupPoints hp, hsame]
    exact beq_self_eq_true _
  · rename_i hother
    rw [List.countP_eq_zero]
    intro p hp
    rw [owner_of_mem_groupPoints hp]
    simpa using hother

/-- Of a list whose other entries count nothing, one entry counts. -/
theorem sum_mapIdx_single {α : Type} (f : α → Nat) (xs : List α) (i : Nat) :
    (xs.mapIdx fun j x => if j = i then f x else 0).sum = (xs[i]?.map f).getD 0 := by
  induction xs generalizing i with
  | nil => rfl
  | cons x xs ih =>
      rw [List.mapIdx_cons, List.sum_cons]
      cases i with
      | zero =>
          have hrest : (xs.mapIdx fun j x => if j + 1 = 0 then f x else 0).sum = 0 := by
            refine List.sum_eq_zero fun n hn => ?_
            obtain ⟨j, hj, rfl⟩ := List.mem_mapIdx.mp hn
            exact if_neg (Nat.succ_ne_zero j)
          rw [hrest]
          simp
      | succ i => simpa using ih i

theorem countP_owner_made (digest : Bytes → Hash.Md5.Digest) {i : GroupId}
    (hs : shards[i]? = some s) :
    (made digest shards).countP (·.owner == some i) = digests shards s * 4 := by
  have hcounts : (shards.mapIdx fun g s => groupPoints digest (digests shards s * 4) s g).map
      (List.countP (·.owner == some i)) =
        shards.mapIdx fun g s => if g = i then digests shards s * 4 else 0 := by
    refine List.ext_getElem? fun g => ?_
    rw [List.getElem?_map, List.getElem?_mapIdx, List.getElem?_mapIdx, Option.map_map]
    exact Option.map_congr fun s _ => countP_owner_groupPoints _ s g i
  unfold made
  rw [List.countP_flatten, hcounts, sum_mapIdx_single (fun s => digests shards s * 4), hs]
  rfl

theorem length_made (digest : Bytes → Hash.Md5.Digest) (shards : List Shard) :
    (made digest shards).length = (shards.map (digests shards)).sum * 4 := by
  have hlengths : (shards.mapIdx fun g s => groupPoints digest (digests shards s * 4) s g).map
      List.length = shards.map fun s => digests shards s * 4 := by
    refine List.ext_getElem? fun g => ?_
    rw [List.getElem?_map, List.getElem?_mapIdx, List.getElem?_map, Option.map_map]
    exact Option.map_congr fun s _ => length_groupPoints _ s g
  unfold made
  rw [List.length_flatten, hlengths, List.sum_map_mul_right]

/-! ## What rounding loses -/

/-- The shares with what is rounded off are all digests. -/
theorem sum_shares (shards : List Shard) :
    weightSum shards * (shards.map (digests shards)).sum +
      (shards.map fun s => s.weight.toNat * 40 * shards.length % weightSum shards).sum =
        weightSum shards * (40 * shards.length) := by
  rw [← List.sum_map_mul_left, ← List.sum_map_add]
  simp only [digests, Nat.div_add_mod, Nat.mul_assoc]
  rw [List.sum_map_mul_right]
  rfl

theorem sum_digests_le (hsum : 0 < weightSum shards) :
    (shards.map (digests shards)).sum ≤ 40 * shards.length := by
  have hshares := sum_shares shards
  exact Nat.le_of_mul_le_mul_left (by omega) hsum

/-- Less than one digest a group is rounded off. -/
theorem lt_sum_digests (hne : shards ≠ []) (hsum : 0 < weightSum shards) :
    39 * shards.length < (shards.map (digests shards)).sum := by
  have hshares := sum_shares shards
  have hpos : 0 < shards.length := List.length_pos_iff.mpr hne
  have hlost : (shards.map fun s => s.weight.toNat * 40 * shards.length % weightSum shards).sum ≤
      shards.length * (weightSum shards - 1) := by
    have hle := List.sum_le_card_nsmul
      (shards.map fun s => s.weight.toNat * 40 * shards.length % weightSum shards)
      (weightSum shards - 1) (by
        intro lost hlost
        obtain ⟨s, -, rfl⟩ := List.mem_map.mp hlost
        have hlt := Nat.mod_lt (s.weight.toNat * 40 * shards.length) hsum
        omega)
    simpa using hle
  refine Nat.lt_of_mul_lt_mul_left (a := weightSum shards) ?_
  have hsplit : shards.length * (weightSum shards - 1) + shards.length =
      weightSum shards * shards.length := by
    rw [← Nat.mul_succ, Nat.succ_eq_add_one, Nat.sub_add_cancel hsum, Nat.mul_comm]
  have hforty : weightSum shards * (40 * shards.length) =
      weightSum shards * (39 * shards.length) + weightSum shards * shards.length := by ring
  omega

/-! ## The ring -/

/-- A heavier group never has fewer digests. -/
theorem digests_mono (hle : s.weight ≤ s'.weight) : digests shards s ≤ digests shards s' := by
  have hweights : s.weight.toNat ≤ s'.weight.toNat := UInt32.le_iff_toNat_le.mp hle
  unfold digests
  gcongr

/-- Groups of one weight have forty digests each, whatever the weight. -/
theorem digests_of_even (hsum : 0 < weightSum shards)
    (heven : ∀ s ∈ shards, ∀ s' ∈ shards, s.weight = s'.weight) (hs : s ∈ shards) :
    digests shards s = 40 := by
  have hweights : ∀ s' ∈ shards, s'.weight = s.weight := fun s' hs' => heven s' hs' s hs
  have hpositive : s.weight ≠ 0 := by
    intro hzero
    have hequal := weightSum_of_equal hweights
    rw [hzero] at hequal
    simp at hequal
    omega
  exact digests_of_equal (List.ne_nil_of_mem hs) hpositive hweights rfl

/-- **Points are dealt out by weight.** For fewer than `2 ^ 26` groups of which some has a weight,
points are counted without an overflow, so there is a ring, and every group owns the points that are
counted for it: the heavier ones no fewer, and 160 each where all weights are equal. Rounding costs
less than four points a group. On the ring all points lie in ascending order, those of one position
as they were made. -/
theorem points_weighted (digest : Bytes → Hash.Md5.Digest) (hne : shards ≠ [])
    (hlength : shards.length < 2 ^ 26) (hsum : 0 < weightSum shards) :
    (∀ s ∈ shards, Uncut shards s) ∧
    ∃ (total : Nat) (count : Shard → Nat) (all : List Slot) (ring : Slots),
      totalWeight shards = some total ∧
      (∀ s ∈ shards, pointCount s.weight total shards.length = some (count s)) ∧
      points digest shards = some all ∧ buildWith digest shards = some ring ∧
      (∀ i s, shards[i]? = some s → ring.toList.countP (·.owner == some i) = count s) ∧
      (∀ s ∈ shards, ∀ s' ∈ shards, s.weight ≤ s'.weight → count s ≤ count s') ∧
      ((∀ s ∈ shards, ∀ s' ∈ shards, s.weight = s'.weight) → ∀ s ∈ shards, count s = 160) ∧
      ring.size ≤ 160 * shards.length ∧ 156 * shards.length + 4 ≤ ring.size ∧
      ring.Ascending ∧ ring.toList.Perm all ∧
      ∀ position, ring.toList.filter (·.position == position) =
        all.filter (·.position == position) := by
  have hcountable := countable_of_length hlength
  have huncut : ∀ s ∈ shards, Uncut shards s := fun s hs => hcountable.uncut hs
  have hperm := perm_arrange (made digest shards)
  have hsize : (arrange (made digest shards)).size = (shards.map (digests shards)).sum * 4 := by
    rw [← length_made digest, ← hperm.length_eq, Array.length_toList]
  obtain ⟨s₀, hs₀⟩ := List.exists_mem_of_ne_nil shards hne
  refine ⟨huncut, weightSum shards, fun s => digests shards s * 4, made digest shards,
    arrange (made digest shards), (huncut s₀ hs₀).total, fun s hs => (huncut s hs).points,
    points_eq digest hcountable, buildWith_eq digest hcountable, fun i s hs => ?_,
    fun s _ s' _ hle => ?_, fun heven s hs => ?_, ?_, ?_, ascending_arrange _, hperm,
    filter_position_arrange _⟩
  · rw [hperm.countP_eq, countP_owner_made digest hs]
  · exact Nat.mul_le_mul_right 4 (digests_mono hle)
  · dsimp only
    rw [digests_of_even hsum heven hs]
  · have hle := sum_digests_le hsum
    omega
  · have hlt := lt_sum_digests hne hsum
    omega

/-- Of two groups the second is twice as heavy, and as much is lost as can be. -/
theorem points_weighted_pair :
    let shards : List Shard := [⟨"a", 1⟩, ⟨"b", 2⟩]
    shards ≠ [] ∧ shards.length < 2 ^ 26 ∧ 0 < weightSum shards ∧
      ∃ ring, build shards = some ring ∧ ring.toList.countP (·.owner == some 0) = 104 ∧
        ring.toList.countP (·.owner == some 1) = 212 ∧
        156 * shards.length + 4 = 104 + 212 := by
  intro shards
  have hne : shards ≠ [] := by decide
  have hlength : shards.length < 2 ^ 26 := by decide
  have hsum : 0 < weightSum shards := by decide
  obtain ⟨-, total, count, -, ring, htotal, hcounts, -, hring, howned, -⟩ :=
    points_weighted Hash.Md5.digest hne hlength hsum
  obtain rfl : 3 = total := Option.some.inj htotal
  have hlight : count ⟨"a", 1⟩ = 104 :=
    Option.some.inj ((hcounts ⟨"a", 1⟩ (by decide)).symm.trans (by decide))
  have hheavy : count ⟨"b", 2⟩ = 212 :=
    Option.some.inj ((hcounts ⟨"b", 2⟩ (by decide)).symm.trans (by decide))
  exact ⟨hne, hlength, hsum, ring, hring, (howned 0 _ rfl).trans hlight,
    (howned 1 _ rfl).trans hheavy, rfl⟩

end ShardProxy.Routing.Ring
