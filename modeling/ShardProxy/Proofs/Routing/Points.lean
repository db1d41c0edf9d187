import Mathlib.Algebra.BigOperators.Ring.List
import Mathlib.Algebra.Group.Action.Defs
import Mathlib.Algebra.Order.BigOperators.Group.List
import Mathlib.Tactic.NormNum
import ShardProxy.Proofs.Routing.Ring

/-!
# The points of a ring

How many points a group has is counted in 64 bits. Where no number outgrows them, the count is the
group's share of all weights, rounded down; where one does, there is no ring. The shares cannot all
be rounded down to nothing, for the heaviest group has an average share at least.

* `Ring.Countable`, `Ring.points_eq` — the points where no number outgrows 64 bits;
* `Ring.points_eq_none` — what becomes of the others;
* `Ring.owner_of_mem_made` — points belong to groups;
* `Ring.made_ne_nil` — groups of positive weights make a ring.
-/

namespace ShardProxy.Routing.Ring

variable {digest : Bytes → Hash.Md5.Digest} {shards : List Shard} {s : Shard}

/-! ## Counting -/

theorem fit64_of_lt {n : Nat} (h : n < 2 ^ 64) : fit64 n = some n := if_pos h

theorem fit64_of_le {n : Nat} (h : 2 ^ 64 ≤ n) : fit64 n = none := if_neg (Nat.not_lt.mpr h)

/-- The sum of all weights. -/
def weightSum (shards : List Shard) : Nat := (shards.map (·.weight.toNat)).sum

theorem totalWeight_eq (shards : List Shard) : totalWeight shards = fit64 (weightSum shards) := by
  suffices hfold : ∀ t < 2 ^ 64,
      shards.foldlM (fun t s => fit64 (t + s.weight.toNat)) t = fit64 (t + weightSum shards) by
    have hzero := hfold 0 (by omega)
    rwa [Nat.zero_add] at hzero
  induction shards with
  | nil => exact fun t ht => (fit64_of_lt ht).symm
  | cons s shards ih =>
      intro t ht
      have hsum : t + weightSum (s :: shards) = t + s.weight.toNat + weightSum shards := by
        simp only [weightSum, List.map_cons, List.sum_cons]
        omega
      rw [hsum, List.foldlM_cons]
      by_cases hfits : t + s.weight.toNat < 2 ^ 64
      · rw [fit64_of_lt hfits]
        exact ih _ hfits
      · -- a sum that has outgrown its bits does not come back
        rw [fit64_of_le (Nat.not_lt.mp hfits), fit64_of_le (by omega)]
        rfl

/-- The digests of a group: its share of forty for each group, rounded down. -/
def digests (shards : List Shard) (s : Shard) : Nat :=
  s.weight.toNat * 40 * shards.length / weightSum shards

/-- No number outgrows 64 bits where the points are counted: neither the sum of the weights, nor the
digests of all groups for one weight, nor the points of one group. -/
structure Countable (shards : List Shard) : Prop where
  total : weightSum shards < 2 ^ 64
  product : ∀ s ∈ shards, s.weight.toNat * 40 * shards.length < 2 ^ 64
  points : ∀ s ∈ shards, digests shards s * 4 < 2 ^ 64

theorem pointCount_eq (hproduct : s.weight.toNat * 40 * shards.length < 2 ^ 64)
    (hpoints : digests shards s * 4 < 2 ^ 64) :
    pointCount s.weight (weightSum shards) shards.length = some (digests shards s * 4) := by
  unfold pointCount
  split
  · rename_i hzero
    unfold digests
    rw [hzero, Nat.div_zero, Nat.zero_mul]
  · rw [digestsPerGroup, fit64_of_lt hproduct]
    exact fit64_of_lt hpoints

theorem pointCount_eq_none (hsum : weightSum shards ≠ 0)
    (hover : 2 ^ 64 ≤ s.weight.toNat * 40 * shards.length) :
    pointCount s.weight (weightSum shards) shards.length = none := by
  unfold pointCount
  rw [if_neg hsum, digestsPerGroup, fit64_of_le hover]
  rfl

theorem mapM_eq_some_map {α β : Type} {f : α → Option β} {g : α → β} {xs : List α}
    (h : ∀ x ∈ xs, f x = some (g x)) : xs.mapM f = some (xs.map g) := by
  induction xs with
  | nil => rfl
  | cons x xs ih =>
      rw [List.mapM_cons, h x List.mem_cons_self, ih fun y hy => h y (List.mem_cons_of_mem x hy)]
      rfl

theorem mapM_eq_none {α β : Type} {f : α → Option β} {x : α} {xs : List α} (hx : x ∈ xs)
    (h : f x = none) : xs.mapM f = none := by
  induction xs with
  | nil => cases hx
  | cons y ys ih =>
      rw [List.mapM_cons]
      rcases List.mem_cons.mp hx with rfl | hx
      · rw [h]
        rfl
      · cases f y with
        | none => rfl
        | some b =>
            rw [ih hx]
            rfl

theorem weightSum_le (shards : List Shard) : weightSum shards ≤ shards.length * (2 ^ 32 - 1) := by
  have hle := List.sum_le_card_nsmul (shards.map (·.weight.toNat)) (2 ^ 32 - 1) (by
    intro w hw
    obtain ⟨s, _, rfl⟩ := List.mem_map.mp hw
    have hlt := s.weight.toNat_lt
    omega)
  simpa [weightSum] using hle

theorem weight_le_weightSum (hs : s ∈ shards) : s.weight.toNat ≤ weightSum shards :=
  List.le_sum_of_mem (List.mem_map_of_mem hs)

theorem digests_le (hs : s ∈ shards) : digests shards s ≤ 40 * shards.length := by
  refine Nat.div_le_of_le_mul ?_
  rw [Nat.mul_assoc]
  exact Nat.mul_le_mul_right _ (weight_le_weightSum hs)

/-- The points of fewer than `2 ^ 26` groups can be counted. -/
theorem countable_of_length (hlength : shards.length < 2 ^ 26) : Countable shards := by
  have hbound := weightSum_le shards
  refine ⟨by omega, fun s _ => ?_, fun s hs => ?_⟩
  · have hlt := s.weight.toNat_lt
    calc s.weight.toNat * 40 * shards.length
        ≤ (2 ^ 32 - 1) * 40 * 2 ^ 26 := Nat.mul_le_mul (by omega) (by omega)
      _ < 2 ^ 64 := by norm_num
  · have hle := digests_le hs
    omega

/-- Some group has an average weight or more. -/
theorem exists_weightSum_le (hne : shards ≠ []) :
    ∃ s ∈ shards, weightSum shards ≤ s.weight.toNat * shards.length := by
  by_contra hall
  push Not at hall
  have hpos : 0 < shards.length := List.length_pos_iff.mpr hne
  have hle := List.sum_le_card_nsmul (shards.map fun s => s.weight.toNat * shards.length)
    (weightSum shards - 1) (by
      intro w hw
      obtain ⟨s, hs, rfl⟩ := List.mem_map.mp hw
      have hlt := hall s hs
      omega)
  rw [List.sum_map_mul_right, List.length_map, smul_eq_mul, Nat.mul_comm] at hle
  have hsum : weightSum shards ≤ weightSum shards - 1 := Nat.le_of_mul_le_mul_left hle hpos
  obtain ⟨s, hs⟩ := List.exists_mem_of_ne_nil shards hne
  have hlt := hall s hs
  omega

/-! ## Points -/

/-- The points that groups make where they can be counted. -/
def made (digest : Bytes → Hash.Md5.Digest) (shards : List Shard) : List Slot :=
  (shards.mapIdx fun g s => groupPoints digest (digests shards s * 4) s g).flatten

theorem points_eq (digest : Bytes → Hash.Md5.Digest) (h : Countable shards) :
    points digest shards = some (made digest shards) := by
  have hcounts : (shards.mapM fun s => pointCount s.weight (weightSum shards) shards.length) =
      some (shards.map fun s => digests shards s * 4) :=
    mapM_eq_some_map fun s hs => pointCount_eq (h.product s hs) (h.points s hs)
  unfold points made
  rw [totalWeight_eq, fit64_of_lt h.total, Option.bind_eq_bind, Option.bind_some, hcounts]
  refine congrArg (some <| List.flatten ·) (List.ext_getElem (by simp) fun g _ _ => ?_)
  simp

/-- A group whose digests cannot be counted keeps all others from the ring. -/
theorem points_eq_none (digest : Bytes → Hash.Md5.Digest) (hs : s ∈ shards)
    (hsum : weightSum shards ≠ 0) (hover : 2 ^ 64 ≤ s.weight.toNat * 40 * shards.length) :
    points digest shards = none := by
  unfold points
  rw [totalWeight_eq]
  by_cases htotal : weightSum shards < 2 ^ 64
  · rw [fit64_of_lt htotal, Option.bind_eq_bind, Option.bind_some,
      mapM_eq_none hs (pointCount_eq_none hsum hover)]
    rfl
  · rw [fit64_of_le (Nat.not_lt.mp htotal)]
    rfl

theorem buildWith_eq (digest : Bytes → Hash.Md5.Digest) (h : Countable shards) :
    buildWith digest shards = some (arrange (made digest shards)) := by
  unfold buildWith
  rw [points_eq digest h, Option.map_some]

theorem ring_eq (kind : Hash.Kind) (h : Countable shards) :
    Table.ring kind shards =
      some ⟨.ring, kind, shards, arrange (made Hash.Md5.digest shards), .empty⟩ := by
  unfold Table.ring build
  rw [buildWith_eq Hash.Md5.digest h, Option.map_some]

theorem owner_of_mem_groupPoints {count : Nat} {g : GroupId} {p : Slot}
    (hp : p ∈ groupPoints digest count s g) : p.owner = some g := by
  obtain ⟨i, _, hp⟩ := List.mem_flatMap.mp hp
  obtain ⟨w, _, rfl⟩ := List.mem_map.mp hp
  rfl

/-- Every point belongs to a group. -/
theorem owner_of_mem_made {p : Slot} (hp : p ∈ made digest shards) :
    ∃ g < shards.length, p.owner = some g := by
  obtain ⟨ps, hps, hp⟩ := List.mem_flatten.mp hp
  obtain ⟨g, hg, rfl⟩ := List.mem_mapIdx.mp hps
  exact ⟨g, hg, owner_of_mem_groupPoints hp⟩

theorem made_ne_nil_of_mem (hs : s ∈ shards) (hcount : 0 < digests shards s) :
    made digest shards ≠ [] := by
  obtain ⟨g, hg, rfl⟩ := List.mem_iff_getElem.mp hs
  have hdigest : 0 < digests shards shards[g] * 4 / pointsPerDigest := by
    rw [pointsPerDigest, Nat.mul_div_cancel _ (by omega)]
    exact hcount
  have hfirst : ⟨some g, (digest (Text.utf8 (shards[g].name ++ "-" ++ toString 0))).a⟩ ∈
      made digest shards := by
    refine List.mem_flatten.mpr ⟨_, List.mem_mapIdx.mpr ⟨g, hg, rfl⟩, ?_⟩
    refine List.mem_flatMap.mpr ⟨0, List.mem_range.mpr hdigest, ?_⟩
    exact List.mem_map.mpr ⟨_, List.mem_cons_self, rfl⟩
  exact List.ne_nil_of_mem hfirst

/-- **Groups of positive weights make a ring.** Shares are rounded down, but not all of them to
nothing. -/
theorem made_ne_nil (digest : Bytes → Hash.Md5.Digest) (hne : shards ≠ [])
    (hweights : ∀ s ∈ shards, s.weight ≠ 0) : made digest shards ≠ [] := by
  obtain ⟨s, hs, haverage⟩ := exists_weightSum_le hne
  have hpos : 0 < s.weight.toNat := by
    refine Nat.pos_of_ne_zero fun hzero => hweights s hs ?_
    exact UInt32.toNat_inj.mp hzero
  have hsum : 0 < weightSum shards := Nat.lt_of_lt_of_le hpos (weight_le_weightSum hs)
  refine made_ne_nil_of_mem hs ?_
  -- the share of a group of average weight is forty digests
  refine Nat.div_pos ?_ hsum
  calc weightSum shards
      ≤ s.weight.toNat * shards.length := haverage
    _ ≤ s.weight.toNat * 40 * shards.length := Nat.mul_le_mul_right _ (by omega)

end ShardProxy.Routing.Ring
