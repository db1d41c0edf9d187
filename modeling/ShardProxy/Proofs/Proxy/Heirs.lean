import ShardProxy.Proofs.Lookup
import ShardProxy.Proofs.Routing.Slots
import ShardProxy.Proxy.Health

/-!
# Heirs

Where slots come back to the groups that they were taken from, every slot has an heir: the group
that it is with, or the ejected group that it comes back to. An ejection pending on one group may
move a slot that is on loan, and may write it down as the group's own; the heir of the slot is none
the less the last group that got it back.

* `Health.State.Kept` — a slot is with its heir, unless the heir is ejected and has it written down;
* `Kept.report`, `Kept.fire` — what a report and a timer keep of this.
-/

namespace ShardProxy.Health

namespace Monitor

variable (m : Monitor) {g k : GroupId}

@[simp]
theorem record_setRecord_self (g : GroupId) (r : Record) : (m.setRecord g r).record g = r := by
  unfold record setRecord
  simp

theorem record_setRecord_ne (r : Record) (h : k ≠ g) : (m.setRecord g r).record k = m.record k := by
  have hkey : (k == g) = false := beq_false_of_ne h
  unfold record setRecord
  rw [List.lookup_cons, hkey, lookup_filter_ne _ h]

theorem isEjected_setRecord_self (g : GroupId) (r : Record) :
    (m.setRecord g r).isEjected g = !r.canEject := by
  unfold isEjected
  rw [record_setRecord_self]

theorem isEjected_setRecord_ne (r : Record) (h : k ≠ g) :
    (m.setRecord g r).isEjected k = m.isEjected k := by
  unfold isEjected
  rw [record_setRecord_ne m r h]

variable {m}

/-- A timer is set exactly while an ejection is pending, if that is so of the new record. -/
theorem timed_setRecord {r : Record} (h : ∀ k, (m.record k).timer.isSome = m.isEjected k)
    (hr : r.timer.isSome = !r.canEject) (k : GroupId) :
    ((m.setRecord g r).record k).timer.isSome = (m.setRecord g r).isEjected k := by
  by_cases hkg : k = g
  · rw [hkg, record_setRecord_self, isEjected_setRecord_self, hr]
  · rw [record_setRecord_ne m r hkg, isEjected_setRecord_ne m r hkg]
    exact h k

/-- A group that nothing is remembered of is not ejected. -/
theorem isEjected_of_records (h : ∀ e ∈ m.records, e.2.canEject = true) (g : GroupId) :
    m.isEjected g = false := by
  unfold isEjected record
  cases hg : m.records.lookup g with
  | none => rfl
  | some r => rw [Option.getD_some, h _ (mem_of_lookup hg)]; rfl

end Monitor

namespace State

/-- Every slot is with its heir, or with another group for as long as the heir is ejected. Then the
heir has the slot written down, and its timer is set. The slots lie where the `first` ones did. -/
structure Kept (first : Routing.Slots) (heir : Nat → Option GroupId) (s : State) : Prop where
  placed : s.table.slots.positions = first.positions
  restoring : s.monitor.options.ejectAfterRestore = true
  away : ∀ i < first.size, s.table.ownerAt? i ≠ heir i →
    ∃ g, heir i = some g ∧ s.monitor.isEjected g = true
  noted : ∀ i < first.size, ∀ g, heir i = some g → s.monitor.isEjected g = true →
    i ∈ (s.monitor.record g).snapshot
  timed : ∀ g, (s.monitor.record g).timer.isSome = s.monitor.isEjected g

/-- What a timer that gives `slots` back to `g` makes of the heirs: each of the slots has the group
for its heir, or an heir of its own that is ejected still; the other slots keep theirs. -/
structure Inherits (first : Routing.Slots) (heir heir' : Nat → Option GroupId)
    (ejected : GroupId → Bool) (g : GroupId) (slots : List Nat) : Prop where
  given : ∀ i < first.size, i ∈ slots → heir' i = some g ∨
    ∃ k, heir' i = some k ∧ heir i = some k ∧ ejected k = true
  left : ∀ i < first.size, i ∉ slots → heir' i = heir i

namespace Kept

variable {first : Routing.Slots} {heir heir' : Nat → Option GroupId} {s s' : State} {g : GroupId}

theorem size_eq (h : Kept first heir s) : s.table.slots.size = first.size :=
  Routing.Slots.size_eq_of_positions h.placed

/-- Where no ejection is pending every slot is with its heir. -/
theorem settled (h : Kept first heir s) (hidle : ∀ g, s.monitor.isEjected g = false) {i : Nat}
    (hi : i < first.size) : s.table.ownerAt? i = heir i := by
  by_contra haway
  obtain ⟨g, _, hg⟩ := h.away i hi haway
  rw [hidle g] at hg
  cases hg

/-- With nothing remembered, the heirs are the owners. -/
theorem fresh (hrecords : s.monitor.records = [])
    (hrestore : s.monitor.options.ejectAfterRestore = true) :
    Kept s.table.slots s.table.ownerAt? s := by
  have hrecord (g : GroupId) : s.monitor.record g = {} := by
    unfold Monitor.record
    rw [hrecords]
    rfl
  refine ⟨rfl, hrestore, ?_, ?_, ?_⟩
  · intro i _ haway
    exact absurd rfl haway
  · intro i _ g _ hg
    rw [Monitor.isEjected, hrecord] at hg
    cases hg
  · intro g
    rw [Monitor.isEjected, hrecord]
    rfl

/-- Only slots and records matter. -/
theorem of_slots (h : Kept first heir s) (hslots : s'.table.slots = s.table.slots)
    (hmonitor : s'.monitor = s.monitor) : Kept first heir s' := by
  have howner (i : Nat) : s'.table.ownerAt? i = s.table.ownerAt? i := by
    unfold Routing.Table.ownerAt?
    rw [hslots]
  refine ⟨by rw [hslots, h.placed], ?_, ?_, ?_, ?_⟩
  · rw [hmonitor]
    exact h.restoring
  · intro i hi haway
    rw [howner] at haway
    rw [hmonitor]
    exact h.away i hi haway
  · rw [hmonitor]
    exact h.noted
  · rw [hmonitor]
    exact h.timed

/-! ## Steps -/

/-- An ejection is pending, and what the group is heir of is written down. -/
theorem setRecord (h : Kept first heir s) {r : Record} (hpending : r.canEject = false)
    (htimer : r.timer.isSome = true)
    (hnoted : ∀ i < first.size, heir i = some g → i ∈ r.snapshot) :
    Kept first heir (s.setRecord g r) := by
  have htimed : r.timer.isSome = !r.canEject := by
    rw [hpending, htimer]
    rfl
  refine ⟨h.placed, h.restoring, ?_, ?_, Monitor.timed_setRecord h.timed htimed⟩
  · intro i hi haway
    obtain ⟨k, hk, hejected⟩ := h.away i hi haway
    refine ⟨k, hk, ?_⟩
    show (s.monitor.setRecord g r).isEjected k = true
    by_cases hkg : k = g
    · rw [hkg, Monitor.isEjected_setRecord_self, hpending]
      rfl
    · rw [Monitor.isEjected_setRecord_ne _ _ hkg, hejected]
  · intro i hi k hk hejected
    show i ∈ ((s.monitor.setRecord g r).record k).snapshot
    replace hejected : (s.monitor.setRecord g r).isEjected k = true := hejected
    by_cases hkg : k = g
    · rw [hkg, Monitor.record_setRecord_self]
      exact hnoted i hi (hkg ▸ hk)
    · rw [Monitor.isEjected_setRecord_ne _ _ hkg] at hejected
      rw [Monitor.record_setRecord_ne _ _ hkg]
      exact h.noted i hi k hk hejected

/-- Slots may be taken from a group whose ejection is pending. -/
theorem eject (enabled : GroupId → Bool) (h : Kept first heir s)
    (hejected : s.monitor.isEjected g = true) : Kept first heir (s.eject enabled g).2 := by
  refine ⟨(Routing.Table.positions_eject _ _ _).trans h.placed, h.restoring, ?_, h.noted, h.timed⟩
  intro i hi haway
  by_cases hown : s.table.ownerAt? i = some g
  · by_cases hheir : heir i = some g
    · exact ⟨g, hheir, hejected⟩
    · refine h.away i hi ?_
      intro hsame
      exact hheir (hsame ▸ hown)
  · refine h.away i hi ?_
    intro hsame
    exact haway ((Routing.Table.ownerAt?_eject _ hown).trans hsame)

/-- A group gets back the slots that it has written down. -/
theorem restore (h : Kept first heir s)
    (hheirs : Inherits first heir heir' (s.restore g).monitor.isEjected g
      (s.monitor.record g).snapshot) : Kept first heir' (s.restore g) := by
  have hself : (s.restore g).monitor.isEjected g = false :=
    Monitor.isEjected_setRecord_self _ _ _
  have hothers {k : GroupId} (hk : (s.restore g).monitor.isEjected k = true) :
      k ≠ g ∧ s.monitor.isEjected k = true := by
    have hkg : k ≠ g := by
      rintro rfl
      rw [hself] at hk
      cases hk
    exact ⟨hkg, (Monitor.isEjected_setRecord_ne _ _ hkg).symm.trans hk⟩
  refine ⟨(Routing.Table.positions_restore _ _ _).trans h.placed, h.restoring, ?_, ?_,
    Monitor.timed_setRecord h.timed rfl⟩
  · intro i hi haway
    by_cases hmem : i ∈ (s.monitor.record g).snapshot
    · have howner : (s.restore g).table.ownerAt? i = some g :=
        Routing.Table.ownerAt?_restore_of_mem (h.size_eq.symm ▸ hi) hmem
      rcases hheirs.given i hi hmem with hgiven | ⟨k, hk, _, hejected⟩
      · exact absurd (howner.trans hgiven.symm) haway
      · exact ⟨k, hk, hejected⟩
    · have howner : (s.restore g).table.ownerAt? i = s.table.ownerAt? i :=
        Routing.Table.ownerAt?_restore_of_not_mem hmem
      rw [howner, hheirs.left i hi hmem] at haway
      obtain ⟨k, hk, hejected⟩ := h.away i hi haway
      -- the slot is not written down for the group, so the group is not its heir
      have hkg : k ≠ g := by
        rintro rfl
        exact hmem (h.noted i hi k hk hejected)
      exact ⟨k, (hheirs.left i hi hmem).trans hk,
        (Monitor.isEjected_setRecord_ne _ _ hkg).trans hejected⟩
  · intro i hi k hk hejected
    obtain ⟨hkg, hbefore⟩ := hothers hejected
    have hbefore_heir : heir i = some k := by
      by_cases hmem : i ∈ (s.monitor.record g).snapshot
      · rcases hheirs.given i hi hmem with hgiven | ⟨l, hl, hl', _⟩
        · exact absurd (Option.some.inj (hk.symm.trans hgiven)) hkg
        · rw [hl', ← hl, hk]
      · rw [← hheirs.left i hi hmem, hk]
    show i ∈ ((s.monitor.setRecord g {}).record k).snapshot
    rw [Monitor.record_setRecord_ne _ _ hkg]
    exact h.noted i hi k hbefore_heir hbefore

/-! ## Events -/

/-- A report ejects a group that is with all it is heir of. -/
theorem report (enabled : GroupId → Bool) (g : GroupId) (h : Kept first heir s) :
    Kept first heir (s.report enabled g).2 := by
  unfold State.report
  split
  · rename_i hcan
    rw [Bool.and_eq_true] at hcan
    have hidle : s.monitor.isEjected g = false := by
      unfold Monitor.isEjected
      rw [hcan.2]
      rfl
    -- the record is written first: then the slots are taken from an ejected group
    let r : Record := ⟨(s.eject enabled g).1, false, some .retry⟩
    have hnoted : ∀ i < first.size, heir i = some g → i ∈ r.snapshot := by
      intro i hi hheir
      show i ∈ (s.table.eject g (s.targets enabled g)).1
      rw [Routing.Table.mem_eject]
      by_contra haway
      obtain ⟨k, hk, hejected⟩ := h.away i hi (hheir ▸ haway)
      obtain rfl : k = g := Option.some.inj (hk.symm.trans hheir)
      rw [hidle] at hejected
      cases hejected
    have hrecord : Kept first heir (s.setRecord g r) := h.setRecord rfl rfl hnoted
    have hejected : (s.setRecord g r).monitor.isEjected g = true :=
      Monitor.isEjected_setRecord_self _ _ _
    exact hrecord.eject enabled hejected
  · exact h

/-- With restoring on, a timer gives the group its slots back, or takes from it what it got since,
or does nothing. -/
theorem fire_cases (enabled : GroupId → Bool) (g : GroupId) (h : Kept first heir s) :
    (s.monitor.isEjected g = true ∧ enabled g = true ∧ (s.fire enabled g).2 = s.restore g) ∨
    ((s.fire enabled g).2.monitor.isEjected g = s.monitor.isEjected g ∧
      (enabled g = true → s.monitor.isEjected g = false) ∧
      Kept first heir (s.fire enabled g).2) := by
  have htimed := h.timed g
  unfold fire
  dsimp only
  rw [if_pos h.restoring]
  split
  · rename_i htimer
    rw [htimer] at htimed
    exact .inr ⟨rfl, fun _ => htimed.symm, h⟩
  · rename_i htimer
    rw [htimer] at htimed
    split
    · rename_i henabled
      exact .inl ⟨htimed.symm, henabled, rfl⟩
    · rename_i hdown
      have hpending : s.monitor.isEjected g = true := htimed.symm
      have hcan : (s.monitor.record g).canEject = false := by
        simpa [Monitor.isEjected] using hpending
      have htaken := h.eject enabled hpending
      refine .inr ⟨?_, fun henabled => absurd henabled hdown, htaken.setRecord hcan rfl ?_⟩
      · exact Monitor.isEjected_setRecord_self _ _ _
      · -- what the group is heir of is written down, so a written list is not replaced
        intro i hi hheir
        have hmem : i ∈ (s.monitor.record g).snapshot := h.noted i hi g hheir hpending
        have hsome : (s.monitor.record g).snapshot.isEmpty = false := by
          rw [List.isEmpty_eq_false_iff]
          exact List.ne_nil_of_mem hmem
        show i ∈ if (s.monitor.record g).snapshot.isEmpty then _ else (s.monitor.record g).snapshot
        rw [hsome]
        exact hmem
  · rename_i htimer
    rw [htimer] at htimed
    split
    · rename_i henabled
      exact .inl ⟨htimed.symm, henabled, rfl⟩
    · rename_i hdown
      exact .inr ⟨rfl, fun henabled => absurd henabled hdown, h⟩

end Kept

end State

end ShardProxy.Health
