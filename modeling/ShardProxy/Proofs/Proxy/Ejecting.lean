import Mathlib.Data.List.Count
import Mathlib.Tactic.Ring
import ShardProxy.Proofs.Routing.Shape
import ShardProxy.Proxy.Health

/-!
# Slots of an ejected group

A group is ejected: its slots are dealt out to other groups, one after the other and round again,
and each key in one of them goes where its slot goes. Nobody else loses a slot, and what was taken
can be given back as if nothing had been.

* `Table.turns` — whose turn it is, slot by slot;
* `Table.gain`, `Table.gain_eject_bounds` — how many slots a target gets;
* `Table.resolve_eject_of_owned`, `Table.resolve_eject_of_not_owned` — where keys go;
* `Table.DealtOut` — all of it;
* `Health.State.slots_dealt_out` — an ejection does that and can be taken back; where it leaves the
  keys of a group that was reported.
-/

namespace ShardProxy

namespace Routing.Table

variable {t : Table} {g h : GroupId} {targets : List GroupId} {i n : Nat} {key : Bytes}

/-! ## Turns -/

/-- Whom `n` slots go to that are dealt out to targets in turn. -/
def turns (targets : List GroupId) (n : Nat) : List (Option GroupId) :=
  (List.range n).map fun k => targets[k % targets.length]?

/-- The slots that are taken go to the targets in turn. -/
theorem map_ownerAt?_eject (t : Table) (g : GroupId) (targets : List GroupId) :
    (t.eject g targets).1.map (t.eject g targets).2.ownerAt? =
      turns targets (t.eject g targets).1.length := by
  refine List.ext_getElem? fun k => ?_
  unfold turns
  rw [List.getElem?_map, List.getElem?_map]
  cases hk : (t.eject g targets).1[k]? with
  | none =>
      rw [List.getElem?_eq_none (by simpa using List.getElem?_eq_none_iff.mp hk)]
      rfl
  | some i =>
      have hlt := (List.getElem?_eq_some_iff.mp hk).1
      rw [List.getElem?_range hlt, Option.map_some, Option.map_some,
        ownerAt?_eject_of_taken targets hk]

/-- A round of turns names each target as often as it is listed. -/
theorem turns_round (targets : List GroupId) (n : Nat) :
    turns targets (targets.length + n) = targets.map some ++ turns targets n := by
  unfold turns
  rw [List.range_add, List.map_append, List.map_map]
  congr 1
  · refine List.ext_getElem? fun k => ?_
    rw [List.getElem?_map, List.getElem?_map]
    by_cases hk : k < targets.length
    · rw [List.getElem?_range hk, List.getElem?_eq_getElem hk, Option.map_some, Option.map_some,
        Nat.mod_eq_of_lt hk, List.getElem?_eq_getElem hk]
    · rw [List.getElem?_eq_none (by simpa using hk), List.getElem?_eq_none (Nat.le_of_not_lt hk)]
      rfl
  · refine List.map_congr_left fun k _ => ?_
    show targets[(targets.length + k) % targets.length]? = targets[k % targets.length]?
    rw [Nat.add_mod_left]

/-- In the middle of a round no target has had more turns than it is listed. -/
theorem count_turns_le (h : GroupId) (hn : n ≤ targets.length) :
    (turns targets n).count (some h) ≤ targets.count h := by
  have hround := turns_round targets 0
  have hfront : turns targets n <+: turns targets targets.length := by
    unfold turns
    refine List.IsPrefix.map _ ?_
    rw [← Nat.add_sub_of_le hn, List.range_add]
    exact List.prefix_append _ _
  rw [Nat.add_zero] at hround
  rw [hround] at hfront
  have hcount := hfront.sublist.count_le (some h)
  simp only [turns, List.range_zero, List.map_nil, List.append_nil] at hcount
  rwa [List.count_map_of_injective _ _ (Option.some_injective _)] at hcount

theorem count_turns_rounds (targets : List GroupId) (h : GroupId) (rounds n : Nat) :
    (turns targets (targets.length * rounds + n)).count (some h) =
      targets.count h * rounds + (turns targets n).count (some h) := by
  induction rounds with
  | zero => simp
  | succ rounds ih =>
      have hsplit : targets.length * (rounds + 1) + n =
          targets.length + (targets.length * rounds + n) := by ring
      rw [hsplit, turns_round, List.count_append,
        List.count_map_of_injective _ _ (Option.some_injective _), ih]
      ring

/-- Whatever number of slots is dealt out, the turns of a target differ by one round at most. -/
theorem count_turns_bounds (h : GroupId) (hsome : targets ≠ []) (n : Nat) :
    targets.count h * (n / targets.length) ≤ (turns targets n).count (some h) ∧
      (turns targets n).count (some h) ≤ targets.count h * (n / targets.length + 1) := by
  have hpos : 0 < targets.length := List.length_pos_iff.mpr hsome
  have hrest := count_turns_le h (Nat.mod_lt n hpos).le
  have hcount := count_turns_rounds targets h (n / targets.length) (n % targets.length)
  rw [Nat.div_add_mod] at hcount
  rw [hcount, Nat.mul_add, Nat.mul_one]
  exact ⟨Nat.le_add_right _ _, Nat.add_le_add_left hrest _⟩

/-- No place among the targets has two turns more than another. -/
theorem turns_even {places m j j' : Nat} (hj : j < places) (hj' : j' < places) :
    ((List.range m).countP fun k => k % places == j) ≤
      ((List.range m).countP fun k => k % places == j') + 1 := by
  have hsome : List.range places ≠ [] :=
    List.ne_nil_of_length_pos (by rw [List.length_range]; omega)
  -- the places take turns as if they were the targets
  have hplace (j : Nat) (hj : j < places) :
      m / places ≤ ((List.range m).countP fun k => k % places == j) ∧
        ((List.range m).countP fun k => k % places == j) ≤ m / places + 1 := by
    have honce : (List.range places).count j = 1 :=
      List.count_eq_one_of_mem List.nodup_range (List.mem_range.mpr hj)
    have hturns : (turns (List.range places) m).count (some j) =
        (List.range m).countP fun k => k % places == j := by
      unfold turns
      rw [List.count, List.countP_map, List.length_range]
      refine List.countP_congr fun k _ => ?_
      simp [List.getElem?_range (Nat.mod_lt k (Nat.zero_lt_of_lt hj))]
    have hbounds := count_turns_bounds j hsome m
    rwa [honce, hturns, List.length_range, Nat.one_mul, Nat.one_mul] at hbounds
  have hmost := (hplace j hj).2
  have hleast := (hplace j' hj').1
  omega

/-! ## Gains -/

/-- How many slots a group has gained. -/
def gain (t now : Table) (h : GroupId) : Int := (now.ownedBy h).length - (t.ownedBy h).length

/-- A group that slots are dealt to has those of its turns besides its own. -/
theorem length_ownedBy_eject (targets : List GroupId) (hne : h ≠ g) :
    ((t.eject g targets).2.ownedBy h).length =
      (turns targets (t.eject g targets).1.length).count (some h) + (t.ownedBy h).length := by
  let now := (t.eject g targets).2
  have hsize : now.slots.size = t.slots.size := (Alike.eject t g targets).size_eq
  show ((List.range now.slots.size).filter fun i => now.ownerAt? i == some h).length = _
  rw [hsize, ← List.countP_eq_length_filter,
    List.countP_eq_countP_filter_add _ _ fun i => t.ownerAt? i == some g, ← map_ownerAt?_eject]
  congr 1
  · -- the slots taken
    rw [List.count, List.countP_map]
    rfl
  · -- all others
    show _ = ((List.range t.slots.size).filter fun i => t.ownerAt? i == some h).length
    rw [← List.countP_eq_length_filter, List.countP_filter]
    refine List.countP_congr fun i _ => ?_
    by_cases howner : t.ownerAt? i = some g
    · have hother : some g ≠ some h := fun hsame => hne (Option.some.inj hsame).symm
      simp [howner, hne.symm]
    · rw [show now.ownerAt? i = t.ownerAt? i from ownerAt?_eject targets howner]
      simp [howner]

theorem gain_eject (targets : List GroupId) (hne : h ≠ g) :
    t.gain (t.eject g targets).2 h =
      ((turns targets (t.eject g targets).1.length).count (some h) : Nat) := by
  unfold gain
  rw [length_ownedBy_eject targets hne]
  omega

/-- As many slots as there are full rounds of turns, and at most one round more. -/
theorem gain_eject_bounds (hne : h ≠ g) (hsome : targets ≠ []) :
    let rounds := (t.eject g targets).1.length / targets.length
    (targets.count h * rounds : Nat) ≤ t.gain (t.eject g targets).2 h ∧
      t.gain (t.eject g targets).2 h ≤ (targets.count h * (rounds + 1) : Nat) := by
  intro rounds
  rw [gain_eject targets hne]
  obtain ⟨hleast, hmost⟩ := count_turns_bounds h hsome (t.eject g targets).1.length
  exact ⟨Int.ofNat_le.mpr hleast, Int.ofNat_le.mpr hmost⟩

/-! ## Keys -/

/-- A key goes where its slot goes. -/
theorem resolve_eject_of_owned (targets : List GroupId) (hkey : t.overrides.get? key = none)
    (howner : t.resolve key = some g) :
    ∃ k < (t.eject g targets).1.length,
      (t.eject g targets).2.resolve key = targets[k % targets.length]? := by
  rw [resolve_eq, hkey, Option.none_or] at howner
  obtain ⟨i, hslot, hi⟩ := Option.bind_eq_some_iff.mp howner
  obtain ⟨k, htaken⟩ := List.getElem?_of_mem ((mem_eject targets).mpr hi)
  refine ⟨k, (List.getElem?_eq_some_iff.mp htaken).1, ?_⟩
  have hkey' : (t.eject g targets).2.overrides.get? key = none := by rwa [eject_eq]
  rw [resolve_eq, hkey', Option.none_or, (Alike.eject t g targets).slotIndex?, hslot,
    Option.bind_some, ownerAt?_eject_of_taken targets htaken]

/-- A key that is mapped, or that lies in the slot of another group, stays where it is. -/
theorem resolve_eject_of_not_owned (targets : List GroupId)
    (hother : t.overrides.get? key = none → t.resolve key ≠ some g) :
    (t.eject g targets).2.resolve key = t.resolve key := by
  have hoverrides : (t.eject g targets).2.overrides = t.overrides := by rw [eject_eq]
  rw [resolve_eq, resolve_eq, hoverrides, (Alike.eject t g targets).slotIndex?]
  cases hkey : t.overrides.get? key with
  | some _ => rfl
  | none =>
      have howner := hother hkey
      rw [resolve_eq, hkey, Option.none_or] at howner
      rw [Option.none_or, Option.none_or]
      cases hslot : t.slotIndex? key with
      | none => rfl
      | some i =>
          rw [hslot, Option.bind_some] at howner
          exact ownerAt?_eject targets howner

/-! ## Slots and keys together -/

/-- The slots of a group are taken from it and dealt out. A group that stands in two places among
the targets has the turns of both. -/
structure DealtOut (t : Table) (g : GroupId) (targets : List GroupId) (taken : List Nat)
    (now : Table) : Prop where
  ascending : taken.Pairwise (· < ·)
  mem_taken : ∀ i, i ∈ taken ↔ t.ownerAt? i = some g
  owns_none : now.ownedBy g = []
  /-- The first slot goes to the first target. Without targets, all go to nobody. -/
  in_turn : ∀ k i, taken[k]? = some i → now.ownerAt? i = targets[k % targets.length]?
  places_even : ∀ j < targets.length, ∀ j' < targets.length,
    ((List.range taken.length).countP fun k => k % targets.length == j) ≤
      ((List.range taken.length).countP fun k => k % targets.length == j') + 1
  gains : ∀ h ∈ targets,
    (targets.count h * (taken.length / targets.length) : Nat) ≤ t.gain now h ∧
      t.gain now h ≤ (targets.count h * (taken.length / targets.length + 1) : Nat)
  gains_even : targets.Nodup → ∀ h ∈ targets, ∀ h' ∈ targets, t.gain now h ≤ t.gain now h' + 1
  other_slots : ∀ i, t.ownerAt? i ≠ some g → now.ownerAt? i = t.ownerAt? i
  alike : Alike t now
  overrides : now.overrides = t.overrides
  other_keys : ∀ key, (t.overrides.get? key = none → t.resolve key ≠ some g) →
    now.resolve key = t.resolve key

/-- An ejection deals out the slots of a group that is not a target itself. -/
theorem dealtOut_eject (t : Table) (hg : g ∉ targets) :
    t.DealtOut g targets (t.eject g targets).1 (t.eject g targets).2 := by
  have hgains : ∀ h ∈ targets, _ := fun h hh =>
    gain_eject_bounds (t := t) (ne_of_mem_of_not_mem hh hg) (List.ne_nil_of_mem hh)
  refine ⟨Slots.pairwise_ownedBy _ _, fun i => mem_eject targets, ?_,
    fun k i => ownerAt?_eject_of_taken targets, fun j hj j' hj' => turns_even hj hj', hgains, ?_,
    fun i => ownerAt?_eject targets, .eject t g targets, by rw [eject_eq],
    fun key => resolve_eject_of_not_owned targets⟩
  · -- a slot that it still owns was taken, or was not its own before
    refine List.eq_nil_iff_forall_not_mem.mpr fun i hi => ?_
    have howner : (t.eject g targets).2.ownerAt? i = some g := Slots.mem_ownedBy.mp hi
    by_cases htaken : t.ownerAt? i = some g
    · obtain ⟨k, hk⟩ := List.getElem?_of_mem ((mem_eject targets).mpr htaken)
      rw [ownerAt?_eject_of_taken targets hk] at howner
      exact hg (List.mem_of_getElem? howner)
    · exact htaken ((ownerAt?_eject targets htaken).symm.trans howner)
  · intro honce h hh h' hh'
    have hmost := (hgains h hh).2
    have hleast := (hgains h' hh').1
    rw [List.count_eq_one_of_mem honce hh, Nat.one_mul] at hmost
    rw [List.count_eq_one_of_mem honce hh', Nat.one_mul] at hleast
    push_cast at hmost hleast
    omega

end Routing.Table

/-! ## Reported groups -/

namespace Health.State

open Routing

variable {s : State} {g h : GroupId} {enabled : GroupId → Bool}

theorem mem_targets :
    h ∈ s.targets enabled g ↔ h < s.table.shards.length ∧ h ≠ g ∧ enabled h = true := by
  unfold targets
  rw [List.mem_filter, List.mem_range, Bool.and_eq_true, bne_iff_ne]

/-- Where the report is answered with true, the group was ejected. -/
theorem table_report (hreport : (s.report enabled g).1 = true) :
    (s.report enabled g).2.table = (s.table.eject g (s.targets enabled g)).2 := by
  unfold report at hreport ⊢
  split at hreport
  · rename_i hmay
    rw [if_pos hmay]
    rfl
  · cases hreport

/-- A key of a group that is ejected goes to an enabled group, if there is one besides. -/
theorem resolve_report (hreport : (s.report enabled g).1 = true) {key : Bytes}
    (hkey : s.table.overrides.get? key = none) (howner : s.table.resolve key = some g) :
    (∃ h, (s.report enabled g).2.table.resolve key = some h ∧ h < s.table.shards.length ∧ h ≠ g ∧
      enabled h = true) ∨
    ((s.report enabled g).2.table.resolve key = none ∧
      ∀ h < s.table.shards.length, h ≠ g → enabled h = false) := by
  rw [table_report hreport]
  obtain ⟨k, _, hresolved⟩ := Table.resolve_eject_of_owned (s.targets enabled g) hkey howner
  rw [hresolved]
  cases hturn : (s.targets enabled g)[k % (s.targets enabled g).length]? with
  | some h => exact .inl ⟨h, rfl, mem_targets.mp (List.mem_of_getElem? hturn)⟩
  | none =>
      have hnobody : s.targets enabled g = [] := by
        by_contra hsome
        have hlt := Nat.mod_lt k (List.length_pos_iff.mpr hsome)
        exact absurd (List.getElem?_eq_none_iff.mp hturn) (Nat.not_le_of_lt hlt)
      refine .inr ⟨rfl, fun h hlt hne => ?_⟩
      by_contra hup
      have htarget : h ∈ s.targets enabled g := mem_targets.mpr ⟨hlt, hne, by simpa using hup⟩
      rw [hnobody] at htarget
      cases htarget

/-- **The slots of an ejected group are dealt out.** For every table, every group and any targets
without that group: the slots that are named in the answer are those that the group owned,
ascending; it owns none of them any more, and each has gone to the target whose turn it was. So no
target gains two slots more than another. The other slots, all overrides and the keys that did not
come to the group through a slot stay as they were, and if the slots are given back next, the table
is what it was.

So where a report is answered with true, each key without an override that was the group's is that
of another group, one that was enabled at the time; it is nobody's only where there was none. -/
theorem slots_dealt_out (s : State) {g : GroupId} {targets : List GroupId} (hg : g ∉ targets) :
    let taken := (s.table.eject g targets).1
    let now := (s.table.eject g targets).2
    s.table.DealtOut g targets taken now ∧
    now.restore taken g = s.table ∧
    ∀ enabled : GroupId → Bool, (s.report enabled g).1 = true →
      let later := (s.report enabled g).2.table
      ∀ key, s.table.overrides.get? key = none → s.table.resolve key = some g →
        (∃ h, later.resolve key = some h ∧ h < s.table.shards.length ∧ h ≠ g ∧
          enabled h = true) ∨
        (later.resolve key = none ∧
          ∀ h < s.table.shards.length, h ≠ g → enabled h = false) :=
  ⟨Table.dealtOut_eject s.table hg, Table.restore_eject targets s.table g,
    fun _ hreport _ => resolve_report hreport⟩

/-- Three groups, the first of which owns three of the five slots. -/
def threeGroups : State :=
  ⟨.direct .fnv1a [⟨"a", 1⟩, ⟨"b", 1⟩, ⟨"c", 1⟩] [1, 0, 0, 2, 0],
    { options := { autoEject := true } }⟩

/-- Three slots go to two targets. One of the two is down when their group is reported, so that the
other has all its keys. -/
theorem slots_dealt_out_three :
    let t := threeGroups.table
    let now := (t.eject 0 [2, 1]).2
    t.gain now 2 ≤ t.gain now 1 + 1 ∧ now.ownerAt? 4 = some 2 ∧
      now.restore (t.eject 0 [2, 1]).1 0 = t ∧
      ∃ h, (threeGroups.report (· == 2) 0).2.table.resolve [] = some h ∧ h ≠ 0 ∧
        (h == 2) = true := by
  intro t now
  obtain ⟨hdealt, hrestored, hreported⟩ := slots_dealt_out threeGroups
    (by decide : 0 ∉ [2, 1])
  refine ⟨hdealt.gains_even (by decide) 2 (by decide) 1 (by decide), hdealt.in_turn 2 4 ?_,
    hrestored, ?_⟩
  · decide
  · rcases hreported (· == 2) (by decide) [] rfl (by decide) with
      ⟨h, hresolved, _, hne, hup⟩ | ⟨_, hnobody⟩
    · exact ⟨h, hresolved, hne, hup⟩
    · exact absurd (hnobody 2 (by decide) (by decide)) (by decide)

end Health.State

end ShardProxy
