import ShardProxy.Proofs.Routing.Slots

/-!
# Looking up a ring

A ring is ascending, so halving finds the first point at or after a hash.

* `Slots.Ascending` — positions do not descend;
* `Ring.lookup_eq` — which point a hash belongs to;
* `Ring.lookup_congr` — the answer depends on where the points lie, and on nothing else;
* `Ring.ascending_arrange`, `Ring.perm_arrange`, `Ring.filter_position_arrange` — what a ring is
  made of, and in which order.
-/

namespace ShardProxy.Routing

/-- The positions of some slots do not descend. -/
def Slots.Ascending (slots : Slots) : Prop := slots.positions.toList.Pairwise (· ≤ ·)

namespace Ring

variable {ring ring' : Slots} {h : UInt32} {lo hi : Nat}

theorem position_le (hring : ring.Ascending) {i j : Nat} (hij : i ≤ j) (hj : j < ring.size) :
    (ring[i]).position ≤ (ring[j]).position := by
  rcases Nat.lt_or_eq_of_le hij with hlt | rfl
  · have hpair := List.pairwise_iff_getElem.mp hring i j
      (by simp [Slots.positions]; omega) (by simpa [Slots.positions] using hj) hlt
    simpa [Slots.positions] using hpair
  · exact UInt32.le_refl _

/-! ## Halving -/

/-- The first point at or after a hash lies between two bounds. -/
structure Brackets (ring : Slots) (h : UInt32) (lo hi : Nat) : Prop where
  le : lo ≤ hi
  le_size : hi ≤ ring.size
  below : ∀ i (_ : i < ring.size), i < lo → ring[i].position < h
  above : ∀ i (_ : i < ring.size), hi ≤ i → h ≤ ring[i].position

theorem Brackets.search (hring : ring.Ascending) (hb : Brackets ring h lo hi) :
    Brackets ring h (Ring.search ring h lo hi) (Ring.search ring h lo hi) := by
  fun_induction Ring.search ring h lo hi with
  | case1 lo hi hlt mid hnone =>
      have hsize := hb.le_size
      have hout := Array.getElem?_eq_none_iff.mp hnone
      omega
  | case2 lo hi hlt mid s hs hbefore ih =>
      obtain ⟨hmid, rfl⟩ := Array.getElem?_eq_some_iff.mp hs
      refine ih ⟨by omega, hb.le_size, fun i hi hle => ?_, hb.above⟩
      exact UInt32.lt_of_le_of_lt (position_le hring (Nat.le_of_lt_succ hle) hmid) hbefore
  | case3 lo hi hlt mid s hs hafter ih =>
      obtain ⟨hmid, rfl⟩ := Array.getElem?_eq_some_iff.mp hs
      refine ih ⟨by omega, by omega, hb.below, fun i hi hle => ?_⟩
      exact UInt32.le_trans (UInt32.not_lt.mp hafter) (position_le hring hle hi)
  | case4 lo hi hge =>
      obtain rfl : hi = lo := Nat.le_antisymm (Nat.not_lt.mp hge) hb.le
      exact hb

/-- **Halving finds the first point at or after a hash**; past the last point that is the first
one of the ring. -/
theorem lookup_eq (hring : ring.Ascending) (h : UInt32) :
    lookup ring h = (ring.findIdx? fun s => decide (h ≤ s.position)).getD 0 := by
  have hfound : Brackets ring h (search ring h 0 ring.size) (search ring h 0 ring.size) :=
    Brackets.search hring ⟨Nat.zero_le _, Nat.le_refl _, fun i _ hlt => absurd hlt (Nat.not_lt_zero i),
      fun i hi hle => absurd hi (Nat.not_lt.mpr hle)⟩
  unfold lookup
  dsimp only
  split
  · rename_i hend
    have hnone : ring.findIdx? (fun s => decide (h ≤ s.position)) = none := by
      rw [Array.findIdx?_eq_none_iff]
      intro s hs
      obtain ⟨i, hi, rfl⟩ := Array.mem_iff_getElem.mp hs
      simpa using hfound.below i hi (by omega)
    rw [hnone]
    rfl
  · rename_i hinside
    have hlt : search ring h 0 ring.size < ring.size :=
      Nat.lt_of_le_of_ne hfound.le_size hinside
    have hsome : ring.findIdx? (fun s => decide (h ≤ s.position)) =
        some (search ring h 0 ring.size) := by
      rw [Array.findIdx?_eq_some_iff_getElem]
      refine ⟨hlt, by simpa using hfound.above _ hlt (Nat.le_refl _), fun j hj => ?_⟩
      simpa using hfound.below j (by omega) hj
    rw [hsome]
    rfl

theorem lookup_lt (hring : ring.Ascending) (hne : ring ≠ #[]) (h : UInt32) :
    lookup ring h < ring.size := by
  rw [lookup_eq hring]
  cases hfirst : ring.findIdx? fun s => decide (h ≤ s.position) with
  | none => exact Array.size_pos_iff.mpr hne
  | some i => exact (Array.findIdx?_eq_some_iff_getElem.mp hfirst).1

/-- Halving asks where the points lie, and nothing else. -/
theorem search_congr (hplaces : ring'.positions = ring.positions) (h : UInt32) (lo hi : Nat) :
    search ring' h lo hi = search ring h lo hi := by
  have hplace (i : Nat) : ring'[i]?.map (·.position) = ring[i]?.map (·.position) := by
    simpa [Slots.positions] using congrArg (·[i]?) hplaces
  fun_induction search ring h lo hi with
  | case1 lo hi hlt mid hnone =>
      have hnone' : ring'[mid]? = none := by simpa [hnone] using hplace mid
      rw [search, if_pos hlt]
      dsimp only
      rw [hnone']
  | case2 lo hi hlt mid s hs hbefore ih =>
      have hmid := hplace mid
      rw [hs] at hmid
      obtain ⟨s', hs', hposition⟩ := Option.map_eq_some_iff.mp hmid
      rw [search, if_pos hlt]
      dsimp only
      rw [hs']
      dsimp only
      rw [hposition, if_pos hbefore, ih]
  | case3 lo hi hlt mid s hs hafter ih =>
      have hmid := hplace mid
      rw [hs] at hmid
      obtain ⟨s', hs', hposition⟩ := Option.map_eq_some_iff.mp hmid
      rw [search, if_pos hlt]
      dsimp only
      rw [hs']
      dsimp only
      rw [hposition, if_neg hafter, ih]
  | case4 lo hi hge => rw [search, if_neg hge]

/-- Where the points lie decides the answer. -/
theorem lookup_congr (hplaces : ring'.positions = ring.positions) (h : UInt32) :
    lookup ring' h = lookup ring h := by
  unfold lookup
  rw [Slots.size_eq_of_positions hplaces, search_congr hplaces]

/-! ## What a ring is made of -/

theorem ascending_arrange (points : List Slot) : (arrange points).Ascending := by
  have hsorted := @List.pairwise_mergeSort Slot (fun a b => decide (a.position ≤ b.position))
    (fun a b c hab hbc => by
      simp only [decide_eq_true_eq] at hab hbc ⊢
      exact UInt32.le_trans hab hbc)
    (fun a b => by simpa using UInt32.le_total a.position b.position) points
  simpa [Slots.Ascending, Slots.positions, arrange, List.pairwise_map] using hsorted

theorem perm_arrange (points : List Slot) : (arrange points).toList.Perm points :=
  List.mergeSort_perm _ _

theorem mem_arrange {points : List Slot} {s : Slot} : s ∈ arrange points ↔ s ∈ points := by
  rw [← Array.mem_toList_iff]
  exact (perm_arrange points).mem_iff

theorem arrange_ne_empty {points : List Slot} (h : points ≠ []) : arrange points ≠ #[] := by
  obtain ⟨p, hp⟩ := List.exists_mem_of_ne_nil _ h
  exact Array.ne_empty_of_mem (mem_arrange.mpr hp)

/-- Points in one place stay in the order in which they were made. -/
theorem filter_position_arrange (points : List Slot) (x : UInt32) :
    (arrange points).toList.filter (·.position == x) = points.filter (·.position == x) := by
  let le : Slot → Slot → Bool := fun a b => a.position ≤ b.position
  have hinPlace : (points.filter (·.position == x)).Pairwise (le · ·) := by
    refine List.pairwise_of_forall_mem_list fun a ha b hb => ?_
    have hax : a.position = x := by simpa using (List.mem_filter.mp ha).2
    have hbx : b.position = x := by simpa using (List.mem_filter.mp hb).2
    simp [le, hax, hbx]
  have hsub : (points.filter (·.position == x)).Sublist (points.mergeSort le) := by
    refine List.sublist_mergeSort (fun a b c hab hbc => ?_) (fun a b => ?_) hinPlace
      List.filter_sublist
    · simp only [le, decide_eq_true_eq] at hab hbc ⊢
      exact UInt32.le_trans hab hbc
    · simpa [le] using UInt32.le_total a.position b.position
  have hperm := (List.mergeSort_perm points le).filter (·.position == x)
  have hsame := hsub.filter (·.position == x)
  rw [List.filter_filter] at hsame
  simp only [Bool.and_self] at hsame
  exact (hsame.eq_of_length hperm.length_eq.symm).symm

/-- A ring is its points in order. -/
theorem buildWith_eq_some {digest : Bytes → Hash.Md5.Digest} {shards : List Shard}
    (h : buildWith digest shards = some ring) :
    ∃ made, points digest shards = some made ∧ ring = arrange made := by
  obtain ⟨made, hmade, harranged⟩ := Option.map_eq_some_iff.mp h
  exact ⟨made, hmade, harranged.symm⟩

end Ring

end ShardProxy.Routing
