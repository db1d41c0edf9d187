import Mathlib.Tactic.Ring
import ShardProxy.Proofs.Routing.Overrides
import ShardProxy.Proofs.Routing.Points

/-!
# A group more on the ring

When a group joins a ring of groups that all have its weight, the points that were there stay, and
keys move onto the points of the newcomer only. Of points in one place the first that was made is
met, so that a newcomer takes no key from an older point in its own place. All this as long as the
points can be counted in 64 bits; the first newcomer with whom they cannot has no ring to join.

* `Ring.Nearest`, `Ring.Meets` — the point that a position meets, without a ring or a search;
* `Ring.meets_lookup` — it is the point that is looked up;
* `Ring.moves_onto_newcomer` — who may have a key afterwards;
* `Ring.ring_outgrown` — groups that make a ring, and one more that makes none.
-/

namespace ShardProxy

/-- The hash of a kind, with any digest in the place of MD5. -/
def Hash.Kind.hashWith (digest : Bytes → Md5.Digest) : Kind → Bytes → UInt32
  | .md5, key => (digest key).a
  | kind, key => kind.hash key

namespace Routing

namespace Ring

/-- Where a ring of some groups has a key: the empty key lies at the start, and so does every key of
a single group. -/
def placeOf (digest : Bytes → Hash.Md5.Digest) (kind : Hash.Kind) (count : Nat) (key : Bytes) :
    UInt32 :=
  if key.isEmpty || count == 1 then 0 else kind.hashWith digest key

/-- The owner of a key on a new ring of some groups, under any digest. -/
def ownerWith? (digest : Bytes → Hash.Md5.Digest) (kind : Hash.Kind) (shards : List Shard)
    (key : Bytes) : Option GroupId := do
  let ring ← buildWith digest shards
  if ring.isEmpty then none
  else ring[lookup ring (placeOf digest kind shards.length key)]?.bind (·.owner)

/-- A new ring resolves keys by MD5. -/
theorem resolve_ring {kind : Hash.Kind} {shards : List Shard} {t : Table}
    (ht : Table.ring kind shards = some t) (key : Bytes) :
    t.resolve key = ownerWith? Hash.Md5.digest kind shards key := by
  obtain ⟨ring, hring, rfl⟩ := Option.map_eq_some_iff.mp ht
  have hhash : kind.hashWith Hash.Md5.digest key = kind.hash key := by cases kind <;> rfl
  have hbuilt : buildWith Hash.Md5.digest shards = some ring := hring
  unfold ownerWith? placeOf
  rw [hbuilt, hhash, Option.bind_eq_bind, Option.bind_some]
  apply (Table.resolveAcross_of_none rfl).trans
  show (if ring.isEmpty then none else some (lookup ring _)).bind _ = _
  split <;> rfl

/-! ## The point that a position meets -/

/-- Of the points at or after a position the nearest one, and of those in its place the first. -/
structure Nearest (ps : List Slot) (h : UInt32) (p : Slot) : Prop where
  after : h ≤ p.position
  least : ∀ q ∈ ps, h ≤ q.position → p.position ≤ q.position
  first : ps.find? (·.position == p.position) = some p

/-- The nearest point at or after a position, or where there is none the nearest one from the
start. -/
def Meets (ps : List Slot) (h : UInt32) (p : Slot) : Prop :=
  Nearest ps h p ∨ (∀ q ∈ ps, q.position < h) ∧ Nearest ps 0 p

variable {ps old new : List Slot} {h : UInt32} {p q : Slot}

theorem Nearest.mem (hp : Nearest ps h p) : p ∈ ps := List.mem_of_find?_eq_some hp.first

theorem Nearest.unique (hp : Nearest ps h p) (hq : Nearest ps h q) : p = q := by
  have hplace : p.position = q.position :=
    UInt32.le_antisymm (hp.least q hq.mem hq.after) (hq.least p hp.mem hp.after)
  have hfirst := hp.first
  rw [hplace, hq.first] at hfirst
  exact (Option.some.inj hfirst).symm

theorem Meets.unique (hp : Meets ps h p) (hq : Meets ps h q) : p = q := by
  rcases hp with hp | ⟨hnone, hp⟩ <;> rcases hq with hq | ⟨hnone', hq⟩
  · exact hp.unique hq
  · exact absurd hp.after (UInt32.not_le.mpr (hnone' p hp.mem))
  · exact absurd hq.after (UInt32.not_le.mpr (hnone q hq.mem))
  · exact hp.unique hq

theorem Nearest.of_append (hp : Nearest (old ++ new) h p) (hnew : p ∉ new) : Nearest old h p := by
  refine ⟨hp.after, fun q hq => hp.least q (List.mem_append_left _ hq), ?_⟩
  have hfirst := hp.first
  rw [List.find?_append] at hfirst
  cases hold : old.find? (·.position == p.position) with
  | none =>
      rw [hold, Option.none_or] at hfirst
      exact absurd (List.mem_of_find?_eq_some hfirst) hnew
  | some q => rwa [hold, Option.some_or] at hfirst

/-- A point that is not among the new ones was met before they came. -/
theorem Meets.of_append (hp : Meets (old ++ new) h p) (hnew : p ∉ new) : Meets old h p := by
  rcases hp with hp | ⟨hnone, hp⟩
  · exact .inl (hp.of_append hnew)
  · exact .inr ⟨fun q hq => hnone q (List.mem_append_left _ hq), hp.of_append hnew⟩

/-! ## The point that is looked up -/

variable {ps : List Slot}

theorem nearest_of_index {i : Nat} (hi : i < (arrange ps).size)
    (hafter : h ≤ (arrange ps)[i].position)
    (hbefore : ∀ j (hj : j < i), (arrange ps)[j].position < h) : Nearest ps h (arrange ps)[i] := by
  refine ⟨hafter, fun q hq hle => ?_, ?_⟩
  · obtain ⟨j, hj, rfl⟩ := Array.mem_iff_getElem.mp (mem_arrange.mpr hq)
    rcases Nat.lt_or_ge j i with hlt | hge
    · exact absurd hle (UInt32.not_le.mpr (hbefore j hlt))
    · exact position_le (ascending_arrange ps) hge hj
  · rw [← List.head?_filter, ← filter_position_arrange, List.head?_filter,
      List.find?_eq_some_iff_getElem]
    refine ⟨by simp, i, by simpa using hi, by simp, fun j hj => ?_⟩
    have hlt := UInt32.lt_of_lt_of_le (hbefore j hj) hafter
    simpa using UInt32.ne_of_lt hlt

/-- **What is looked up is the point that is met.** -/
theorem meets_lookup (hne : ps ≠ []) (h : UInt32) :
    ∃ p, (arrange ps)[lookup (arrange ps) h]? = some p ∧ Meets ps h p := by
  rw [lookup_eq (ascending_arrange ps)]
  cases hfirst : (arrange ps).findIdx? fun s => decide (h ≤ s.position) with
  | some i =>
      obtain ⟨hi, hafter, hbefore⟩ := Array.findIdx?_eq_some_iff_getElem.mp hfirst
      refine ⟨_, Array.getElem?_eq_getElem hi, .inl (nearest_of_index hi (by simpa using hafter) ?_)⟩
      exact fun j hj => by simpa using hbefore j hj
  | none =>
      have hpos : 0 < (arrange ps).size := Array.size_pos_iff.mpr (arrange_ne_empty hne)
      refine ⟨_, Array.getElem?_eq_getElem hpos, .inr ⟨fun q hq => ?_, ?_⟩⟩
      · simpa using Array.findIdx?_eq_none_iff.mp hfirst q (mem_arrange.mpr hq)
      · exact nearest_of_index hpos (by simp) fun j hj => absurd hj (Nat.not_lt_zero j)

/-! ## Groups of one weight -/

variable {digest : Bytes → Hash.Md5.Digest} {shards : List Shard} {w : UInt32} {s : Shard}

theorem weightSum_of_equal (hweights : ∀ s ∈ shards, s.weight = w) :
    weightSum shards = shards.length * w.toNat := by
  have hall := List.sum_eq_card_nsmul (shards.map (·.weight.toNat)) w.toNat (by
    intro m hm
    obtain ⟨s, hs, rfl⟩ := List.mem_map.mp hm
    rw [hweights s hs])
  simpa [weightSum] using hall

theorem weightSum_pos_of_equal (hne : shards ≠ []) (hw : w ≠ 0)
    (hweights : ∀ s ∈ shards, s.weight = w) : 0 < weightSum shards := by
  rw [weightSum_of_equal hweights]
  refine Nat.mul_pos (List.length_pos_iff.mpr hne) (Nat.pos_of_ne_zero fun hzero => hw ?_)
  exact UInt32.toNat_inj.mp hzero

/-- Groups of one weight have forty digests each. -/
theorem digests_of_equal (hne : shards ≠ []) (hw : w ≠ 0) (hweights : ∀ s ∈ shards, s.weight = w)
    (hs : s.weight = w) : digests shards s = 40 := by
  have hpos := weightSum_pos_of_equal hne hw hweights
  refine Nat.div_eq_of_eq_mul_left hpos ?_
  rw [hs, weightSum_of_equal hweights]
  ring

theorem countable_of_equal (hne : shards ≠ []) (hw : w ≠ 0) (hweights : ∀ s ∈ shards, s.weight = w)
    (hfits : w.toNat * 40 * shards.length < 2 ^ 64) : Countable shards := by
  refine ⟨?_, fun s hs => ?_, fun s hs => ?_⟩
  · have hle : shards.length * w.toNat ≤ w.toNat * 40 * shards.length := by
      rw [Nat.mul_comm]
      exact Nat.mul_le_mul_right _ (by omega)
    rw [weightSum_of_equal hweights]
    omega
  · rw [hweights s hs]
    exact hfits
  · rw [digests_of_equal hne hw hweights (hweights s hs)]
    decide

theorem made_of_equal (hw : w ≠ 0) (hweights : ∀ s ∈ shards, s.weight = w) :
    made digest shards = (shards.mapIdx fun g s => groupPoints digest 160 s g).flatten := by
  unfold made
  congr 1
  refine List.mapIdx_eq_mapIdx_iff.mpr fun g hg => ?_
  have hmem : shards[g] ∈ shards := List.getElem_mem hg
  rw [digests_of_equal (List.ne_nil_of_mem hmem) hw hweights (hweights _ hmem)]

/-- The points of a newcomer come after those that are there. -/
theorem made_concat {newcomer : Shard} (hw : w ≠ 0)
    (hweights : ∀ s ∈ shards ++ [newcomer], s.weight = w) :
    made digest (shards ++ [newcomer]) =
      made digest shards ++ groupPoints digest 160 newcomer shards.length := by
  rw [made_of_equal hw hweights,
    made_of_equal hw fun s hs => hweights s (List.mem_append_left _ hs), List.mapIdx_append]
  simp

theorem made_ne_nil_of_equal (digest : Bytes → Hash.Md5.Digest) (hne : shards ≠ []) (hw : w ≠ 0)
    (hweights : ∀ s ∈ shards, s.weight = w) : made digest shards ≠ [] :=
  made_ne_nil digest hne fun s hs => (hweights s hs).symm ▸ hw

/-! ## Keys move onto the newcomer -/

variable {newcomer : Shard} {kind : Hash.Kind}

/-- The owner of a key is the owner of the point that its hash meets. -/
theorem ownerWith?_meets (hcountable : Countable shards) (hne : made digest shards ≠ [])
    (kind : Hash.Kind) (key : Bytes) :
    ∃ p, Meets (made digest shards) (placeOf digest kind shards.length key) p ∧
      ownerWith? digest kind shards key = p.owner := by
  have hfull : (arrange (made digest shards)).isEmpty = false := by
    simpa using arrange_ne_empty hne
  obtain ⟨p, hp, hmeets⟩ := meets_lookup hne (placeOf digest kind shards.length key)
  refine ⟨p, hmeets, ?_⟩
  unfold ownerWith?
  rw [buildWith_eq digest hcountable, Option.bind_eq_bind, Option.bind_some, hfull,
    if_neg Bool.false_ne_true]
  exact congrArg (·.bind (·.owner)) hp

theorem buildWith_eq_none_of_equal (digest : Bytes → Hash.Md5.Digest) (hne : shards ≠ [])
    (hw : w ≠ 0) (hweights : ∀ s ∈ shards, s.weight = w)
    (hover : 2 ^ 64 ≤ w.toNat * 40 * shards.length) : buildWith digest shards = none := by
  obtain ⟨s, hs⟩ := List.exists_mem_of_ne_nil shards hne
  have hnone : points digest shards = none := by
    refine points_eq_none digest hs (weightSum_pos_of_equal hne hw hweights).ne' ?_
    rw [hweights s hs]
    exact hover
  unfold buildWith
  rw [hnone, Option.map_none]

theorem ring_eq_none_of_equal (kind : Hash.Kind) (hne : shards ≠ []) (hw : w ≠ 0)
    (hweights : ∀ s ∈ shards, s.weight = w) (hover : 2 ^ 64 ≤ w.toNat * 40 * shards.length) :
    Table.ring kind shards = none := by
  unfold Table.ring build
  rw [buildWith_eq_none_of_equal Hash.Md5.digest hne hw hweights hover, Option.map_none]

theorem Meets.mem (hp : Meets ps h p) : p ∈ ps := by
  rcases hp with hp | ⟨_, hp⟩ <;> exact hp.mem

/-- An owner that is not the newcomer owned the key before. The two rings must have the key in one
place, as rings of one group and of two need not. -/
theorem owner_kept {g : GroupId} (hw : w ≠ 0) (hweights : ∀ s ∈ shards ++ [newcomer], s.weight = w)
    (hp : Meets (made digest shards) h p) (hq : Meets (made digest (shards ++ [newcomer])) h q)
    (howner : q.owner = some g) (hold : g ≠ shards.length) : p.owner = some g := by
  rw [made_concat hw hweights] at hq
  have hnew : q ∉ groupPoints digest 160 newcomer shards.length := fun hmem => by
    have hlast := owner_of_mem_groupPoints hmem
    rw [howner] at hlast
    exact hold (Option.some.inj hlast)
  rw [hp.unique (hq.of_append hnew), howner]

/-- **Keys move onto the newcomer only**, where the points of all can be counted. Before a group
joins and afterwards each key belongs to a group, and where these differ the second one is the
newcomer; so when it leaves again only its own keys move. The points can be counted as long as the
product of weight, digests and groups fits in 64 bits, as it does for fewer than some hundred
million groups of any weight. Where it does not, there is no ring with the newcomer. -/
theorem moves_onto_newcomer (digest : Bytes → Hash.Md5.Digest) (kind : Hash.Kind)
    (hne : shards ≠ []) (hw : w ≠ 0) (hweights : ∀ s ∈ shards ++ [newcomer], s.weight = w) :
    (w.toNat * 40 * (shards.length + 1) < 2 ^ 64 → ∀ key,
      ∃ before now, ownerWith? digest kind shards key = some before ∧ before < shards.length ∧
        ownerWith? digest kind (shards ++ [newcomer]) key = some now ∧ now ≤ shards.length ∧
        (now ≠ before → now = shards.length) ∧ (now ≠ shards.length → before = now) ∧
        (digest = Hash.Md5.digest → ∃ old new, Table.ring kind shards = some old ∧
          Table.ring kind (shards ++ [newcomer]) = some new ∧
          old.resolve key = some before ∧ new.resolve key = some now)) ∧
    (2 ^ 64 ≤ w.toNat * 40 * (shards.length + 1) →
      buildWith digest (shards ++ [newcomer]) = none ∧
        Table.ring kind (shards ++ [newcomer]) = none) := by
  have hlength : (shards ++ [newcomer]).length = shards.length + 1 := by simp
  have hne' : shards ++ [newcomer] ≠ [] := by simp
  have hweights₀ : ∀ s ∈ shards, s.weight = w := fun s hs => hweights s (List.mem_append_left _ hs)
  constructor
  · intro hfits key
    have hcountable : Countable shards := countable_of_equal hne hw hweights₀
      (Nat.lt_of_le_of_lt (Nat.mul_le_mul_left _ (Nat.le_succ _)) hfits)
    have hcountable' : Countable (shards ++ [newcomer]) :=
      countable_of_equal hne' hw hweights (by rwa [hlength])
    obtain ⟨p, hp, howner⟩ :=
      ownerWith?_meets hcountable (made_ne_nil_of_equal digest hne hw hweights₀) kind key
    obtain ⟨q, hq, howner'⟩ :=
      ownerWith?_meets hcountable' (made_ne_nil_of_equal digest hne' hw hweights) kind key
    obtain ⟨before, hbefore, hpOwner⟩ := owner_of_mem_made hp.mem
    obtain ⟨now, hnow, hqOwner⟩ := owner_of_mem_made hq.mem
    rw [hlength] at hnow hq
    have hstays : now ≠ shards.length → before = now := by
      intro hold
      by_cases hone : shards.length = 1
      · omega
      · have hpos : 0 < shards.length := List.length_pos_iff.mpr hne
        have hplace : placeOf digest kind (shards.length + 1) key =
            placeOf digest kind shards.length key := by
          simp [placeOf, hone, Nat.ne_of_gt hpos]
        rw [hplace] at hq
        have hkept := owner_kept hw hweights hp hq hqOwner hold
        exact Option.some.inj (hpOwner.symm.trans hkept)
    refine ⟨before, now, howner.trans hpOwner, hbefore, howner'.trans hqOwner,
      Nat.le_of_lt_succ hnow, ?_, hstays, ?_⟩
    · intro hmoved
      by_contra hold
      exact hmoved (hstays hold).symm
    · rintro rfl
      have hold := ring_eq kind hcountable
      have hnew := ring_eq kind hcountable'
      refine ⟨_, _, hold, hnew, ?_, ?_⟩
      · exact (resolve_ring hold key).trans (howner.trans hpOwner)
      · exact (resolve_ring hnew key).trans (howner'.trans hqOwner)
  · intro hover
    rw [← hlength] at hover
    exact ⟨buildWith_eq_none_of_equal digest hne' hw hweights hover,
      ring_eq_none_of_equal kind hne' hw hweights hover⟩

/-- A second group joins one. -/
theorem moves_onto_second :
    ([⟨"a", 3⟩] : List Shard) ≠ [] ∧ (3 : UInt32) ≠ 0 ∧
      (∀ s ∈ [⟨"a", 3⟩] ++ [(⟨"b", 3⟩ : Shard)], s.weight = 3) ∧
      ∃ old new now, Table.ring .crc16 [⟨"a", 3⟩] = some old ∧
        Table.ring .crc16 [⟨"a", 3⟩, ⟨"b", 3⟩] = some new ∧ old.resolve [107] = some 0 ∧
        new.resolve [107] = some now ∧ (now ≠ 0 → now = 1) := by
  have hweights : ∀ s ∈ [⟨"a", 3⟩] ++ [(⟨"b", 3⟩ : Shard)], s.weight = 3 := by decide
  obtain ⟨hmoves, -⟩ :=
    moves_onto_newcomer Hash.Md5.digest .crc16 (by decide) (by decide) hweights
  obtain ⟨before, now, _, hbefore, _, _, hmoved, _, hresolved⟩ := hmoves (by decide) [107]
  obtain ⟨old, new, hold, hnew, hwas, hnow⟩ := hresolved rfl
  obtain rfl : before = 0 := Nat.lt_one_iff.mp hbefore
  exact ⟨by decide, by decide, hweights, old, new, now, hold, hnew, hwas, hnow, hmoved⟩

/-! ## Too many groups -/

/-- Any number of groups of the greatest weight. -/
def heaviest (count : Nat) : List Shard :=
  (List.range count).map fun i => ⟨toString i, 4294967295⟩

@[simp] theorem length_heaviest (count : Nat) : (heaviest count).length = count := by
  simp [heaviest]

theorem heaviest_succ (count : Nat) :
    heaviest (count + 1) = heaviest count ++ [⟨toString count, 4294967295⟩] := by
  simp [heaviest, List.range_succ]

theorem weight_of_mem_heaviest {count : Nat} (hs : s ∈ heaviest count) : s.weight = 4294967295 := by
  obtain ⟨i, _, rfl⟩ := List.mem_map.mp hs
  rfl

/-- From 107374182 groups of the greatest weight to one more, the product of weight, digests and
groups outgrows 64 bits: the first ring has an owner for the empty key, and there is no second ring
that could. -/
theorem ring_outgrown :
    let shards := heaviest 107374182
    let newcomer : Shard := ⟨toString 107374182, 4294967295⟩
    (∀ s ∈ shards ++ [newcomer], s.weight = 4294967295) ∧
      (∃ t g, Table.ring .md5 shards = some t ∧ t.resolve [] = some g) ∧
      Table.ring .md5 (shards ++ [newcomer]) = none := by
  intro shards newcomer
  have hmore : shards ++ [newcomer] = heaviest (107374182 + 1) := (heaviest_succ _).symm
  have hlength : shards.length = 107374182 := length_heaviest _
  have hne : shards ≠ [] := List.ne_nil_of_length_pos (by rw [hlength]; decide)
  have hcountable : Countable shards := by
    refine countable_of_equal hne (by decide) (fun s => weight_of_mem_heaviest) ?_
    rw [hlength]
    decide
  have hpoints : made Hash.Md5.digest shards ≠ [] :=
    made_ne_nil_of_equal _ hne (by decide) fun s => weight_of_mem_heaviest
  have ht := ring_eq .md5 hcountable
  obtain ⟨p, hp, howner⟩ := ownerWith?_meets hcountable hpoints .md5 []
  obtain ⟨g, _, hpOwner⟩ := owner_of_mem_made hp.mem
  have hlength' : (shards ++ [newcomer]).length = 107374183 := by
    rw [List.length_append, hlength]
    rfl
  rw [hmore] at hlength' ⊢
  refine ⟨fun s => weight_of_mem_heaviest, ⟨_, g, ht, ?_⟩, ?_⟩
  · exact (resolve_ring ht []).trans (howner.trans hpOwner)
  · refine ring_eq_none_of_equal .md5 (w := 4294967295) ?_ (by decide)
      (fun s => weight_of_mem_heaviest) ?_
    · exact List.ne_nil_of_length_pos (by rw [hlength']; decide)
    · rw [hlength']
      decide

end Ring

end Routing

end ShardProxy
