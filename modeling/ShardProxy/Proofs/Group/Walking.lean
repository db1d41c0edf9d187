import Mathlib.Algebra.Order.Ring.Nat
import Mathlib.Data.Fintype.EquivFin
import ShardProxy.Group.Selection

/-!
# One walk over a list of servants

A walk goes as many steps as there are servants, from the one that the cursor leads to. As cursors
count modulo `2 ^ 64`, a walk that passes the end of that range goes on with the first servant,
wherever it was. So it comes by every servant only if it does not pass the end, or if the end falls
between two rounds.

* `stopAt` — the place that a walk has come to after some steps;
* `Whole` — no round is broken off by the end of the range;
* `stops_everywhere_iff` — the walks that come by every servant are those;
* `exists_firstLive_iff` — a whole walk finds a live servant if there is one.
-/

namespace ShardProxy.Group

variable {α : Type} {live : α → Bool} {servants : List α} {cursor : UInt64} {n offset : Nat} {s : α}

/-! ## Where a walk comes by -/

/-- The place that a walk over `n` servants has come to after some steps. -/
def stopAt (n : Nat) (cursor : UInt64) (offset : Nat) : Nat :=
  (cursor + offset.toUInt64).toNat % n

/-- The places of a walk from here are those of one round: it does not pass the end of the range of
cursors, or that end is the end of a round. -/
def Whole (n : Nat) (cursor : UInt64) : Prop := cursor.toNat + n ≤ 2 ^ 64 ∨ n ∣ 2 ^ 64

instance (n : Nat) (cursor : UInt64) : Decidable (Whole n cursor) :=
  inferInstanceAs (Decidable (_ ∨ _))

theorem stopAt_eq_mod (n : Nat) (cursor : UInt64) (offset : Nat) :
    stopAt n cursor offset = (cursor.toNat + offset) % 2 ^ 64 % n := by
  unfold stopAt
  rw [UInt64.toNat_add, Nat.toUInt64, UInt64.toNat_ofNat', Nat.add_mod_mod]

/-- A whole walk goes on as if cursors had no end. -/
theorem Whole.stopAt_eq (h : Whole n cursor) (hoffset : offset < n) :
    stopAt n cursor offset = (cursor.toNat + offset) % n := by
  rw [stopAt_eq_mod]
  rcases h with hbefore | hround
  · rw [Nat.mod_eq_of_lt (by omega : cursor.toNat + offset < 2 ^ 64)]
  · rw [Nat.mod_mod_of_dvd _ hround]

/-- From any start, one round comes by every place. -/
theorem exists_round (start : Nat) {i : Nat} (hi : i < n) :
    ∃ offset < n, (start + offset) % n = i := by
  have hn : 0 < n := Nat.lt_of_le_of_lt (Nat.zero_le i) hi
  have hstart := Nat.mod_lt start hn
  refine ⟨(i + (n - start % n)) % n, Nat.mod_lt _ hn, ?_⟩
  have hsum : start % n + (i + (n - start % n)) = i + n := by omega
  rw [Nat.add_mod_mod, ← Nat.mod_add_mod, hsum, Nat.add_mod_right, Nat.mod_eq_of_lt hi]

/-- A walk that passes the end of the range of cursors within a round comes by a place twice: with the
rest of the range added, the steps before the end go to the places of the steps after it. -/
theorem exists_repeated (h : ¬ Whole n cursor) :
    ∃ first second, first < second ∧ second < n ∧
      stopAt n cursor first = stopAt n cursor second := by
  have hcursor := cursor.toNat_lt
  have hpasses : 2 ^ 64 < cursor.toNat + n := Nat.lt_of_not_le fun hbefore => h (.inl hbefore)
  have hrounds : 2 ^ 64 % n + n * (2 ^ 64 / n) = 2 ^ 64 := Nat.mod_add_div _ _
  have hrest : 0 < 2 ^ 64 % n :=
    Nat.pos_of_ne_zero fun hzero => h (.inr (Nat.dvd_of_mod_eq_zero hzero))
  have hrestLt : 2 ^ 64 % n < n := Nat.mod_lt _ (by omega)
  generalize 2 ^ 64 / n = rounds at hrounds
  generalize 2 ^ 64 % n = rest at hrounds hrest hrestLt
  obtain ⟨first, hfirst⟩ : ∃ first, first = 2 ^ 64 - cursor.toNat - rest := ⟨_, rfl⟩
  have hbefore : (cursor.toNat + first) % 2 ^ 64 = cursor.toNat + first :=
    Nat.mod_eq_of_lt (by omega)
  have hafter : (cursor.toNat + (first + rest)) % 2 ^ 64 = cursor.toNat + (first + rest) - 2 ^ 64 := by
    rw [Nat.mod_eq_sub_mod (by omega), Nat.mod_eq_of_lt (by omega)]
  have hapart : cursor.toNat + first = cursor.toNat + (first + rest) - 2 ^ 64 + n * rounds := by omega
  refine ⟨first, first + rest, by omega, by omega, ?_⟩
  rw [stopAt_eq_mod, stopAt_eq_mod, hbefore, hafter, hapart, Nat.add_mul_mod_self_left]

/-- **Where the end of the range of cursors falls within a round, a place is left out**, since another
one is come by twice. -/
theorem exists_missed (h : ¬ Whole n cursor) :
    ∃ i < n, ∀ offset < n, stopAt n cursor offset ≠ i := by
  obtain ⟨first, second, hlt, hsecond, hsame⟩ := exists_repeated h
  let stop (offset : Fin n) : Fin n :=
    ⟨stopAt n cursor offset, Nat.mod_lt _ (Nat.zero_lt_of_lt hsecond)⟩
  have hinjective : ¬ Function.Injective stop := by
    intro hinjective
    have heq := @hinjective ⟨first, hlt.trans hsecond⟩ ⟨second, hsecond⟩ (Fin.ext hsame)
    exact hlt.ne (congrArg Fin.val heq)
  rw [Finite.injective_iff_surjective] at hinjective
  obtain ⟨i, hmissed⟩ := not_forall.mp hinjective
  exact ⟨i, i.isLt, fun offset hoffset hstop => hmissed ⟨⟨offset, hoffset⟩, Fin.ext hstop⟩⟩

/-- **A walk comes by every place exactly if its cursor is whole.** -/
theorem stops_everywhere_iff :
    (∀ i < n, ∃ offset < n, stopAt n cursor offset = i) ↔ Whole n cursor := by
  constructor
  · intro hall
    by_contra hpasses
    obtain ⟨i, hi, hmissed⟩ := exists_missed hpasses
    obtain ⟨offset, hoffset, hstop⟩ := hall i hi
    exact hmissed offset hoffset hstop
  · intro hwhole i hi
    obtain ⟨offset, hoffset, hstop⟩ := exists_round cursor.toNat hi
    exact ⟨offset, hoffset, (hwhole.stopAt_eq hoffset).trans hstop⟩

/-! ## What a walk finds -/

theorem firstLive_eq_some (h : firstLive live servants cursor = some s) :
    ∃ offset < servants.length,
      servants[stopAt servants.length cursor offset]? = some s ∧ live s = true := by
  obtain ⟨offset, hoffset, hfound⟩ := List.exists_of_findSome?_eq_some h
  obtain ⟨hat, hlive⟩ := Option.filter_eq_some_iff.mp hfound
  exact ⟨offset, List.mem_range.mp hoffset, hat, hlive⟩

/-- What a walk finds is one of the servants, and live. -/
theorem mem_of_firstLive (h : firstLive live servants cursor = some s) :
    s ∈ servants ∧ live s = true := by
  obtain ⟨offset, -, hat, hlive⟩ := firstLive_eq_some h
  exact ⟨List.mem_of_getElem? hat, hlive⟩

theorem firstLive_eq_none_iff : firstLive live servants cursor = none ↔
    ∀ offset < servants.length, ∀ s,
      servants[stopAt servants.length cursor offset]? = some s → live s = false := by
  unfold firstLive
  rw [List.findSome?_eq_none_iff]
  simp [Option.filter_eq_none_iff, stopAt]

/-- The servant that the cursor leads to is the first that is asked. -/
theorem firstLive_of_first (hat : servants[cursor.toNat % servants.length]? = some s)
    (hlive : live s = true) : firstLive live servants cursor = some s := by
  have hsome : servants ≠ [] := by
    rintro rfl
    simp at hat
  obtain ⟨n, hn⟩ := Nat.exists_eq_succ_of_ne_zero (mt List.length_eq_zero_iff.mp hsome)
  unfold firstLive
  rw [hn] at hat ⊢
  simp [List.range_succ_eq_map, hat, hlive]

/-- **A whole walk finds a live servant if there is one.** -/
theorem exists_firstLive_iff (h : Whole servants.length cursor) :
    (∃ s, firstLive live servants cursor = some s) ↔ ∃ s ∈ servants, live s = true := by
  constructor
  · rintro ⟨s, hfound⟩
    exact ⟨s, mem_of_firstLive hfound⟩
  · rintro ⟨s, hs, hlive⟩
    obtain ⟨i, hi, hat⟩ := List.getElem_of_mem hs
    obtain ⟨offset, hoffset, hstop⟩ := stops_everywhere_iff.mpr h i hi
    by_contra hnone
    have hmissed := firstLive_eq_none_iff.mp (Option.eq_none_iff_forall_ne_some.mpr
      fun s hfound => hnone ⟨s, hfound⟩)
    have hdead := hmissed offset hoffset s (by rw [hstop, List.getElem?_eq_getElem hi, hat])
    simp [hlive] at hdead

theorem firstLive_of_dead (hdead : ∀ t ∈ servants, live t = false) (cursor : UInt64) :
    firstLive live servants cursor = none :=
  firstLive_eq_none_iff.mpr fun _ _ t hat => hdead t (List.mem_of_getElem? hat)

/-- A walk does not find the one that it leaves out. -/
theorem firstLive_of_missed [DecidableEq α] (hnodup : servants.Nodup) {i : Nat}
    (hi : i < servants.length)
    (hmissed : ∀ offset < servants.length, stopAt servants.length cursor offset ≠ i) :
    firstLive (· == servants[i]) servants cursor = none := by
  refine firstLive_eq_none_iff.mpr fun offset hoffset t hat => beq_false_of_ne fun heq => ?_
  rw [heq, ← List.getElem?_eq_getElem hi] at hat
  exact hmissed offset hoffset ((List.getElem?_inj hi hnodup).mp hat.symm).symm

end ShardProxy.Group
