import ShardProxy.Proofs.Proxy.Heirs

/-!
# Timers of ejected groups

A report does its work at one stroke. A timer does not: it looks at its group, moves slots, writes
down what it moved and gives slots back in stages, and between any two of them other requests report
groups, other timers go on, servants go up or down, and slots are mapped by hand.

* `Stage`, `State.proceed` — the stages of a timer; without interruption they make up `State.fire`;
* `System` — the timers that are live beside the state, and what can happen next;
* `System.exists_fireAt` — a timer that is not interrupted does what it does at one stroke;
* `Monitor.Minded` — each ejected group has one live timer, and nothing is remembered of the others;
* `System.ejections_minded` — so it is in every run.
-/

namespace ShardProxy.Health

/-! ## The stages of a timer -/

/-- How far the timer of an ejected group has come. -/
inductive Stage where
  /-- It waits for the retry delay to pass. -/
  | waiting
  /-- The group was down: its slots are about to be moved. -/
  | ejecting
  /-- These were moved, and are about to be written down. -/
  | noting (taken : List Nat)
  /-- It is about to look at the group, perhaps after a pause. -/
  | polling
  /-- The group was up: its slots are about to be given back. -/
  | returning
  /-- No slots come back: the ejection is about to end. -/
  | clearing
  deriving DecidableEq, Repr

/-- How many stages are left to a timer, if its group is up. -/
def Stage.left : Stage → Nat
  | waiting | noting _ => 3
  | ejecting => 4
  | polling => 2
  | returning | clearing => 1

/-- One stage of the timer of a group. The answer is the next one, if the timer goes on. -/
def State.proceed (enabled : GroupId → Bool) (s : State) (g : GroupId) :
    Stage → Option Stage × State
  | .waiting =>
    let up : Stage := if s.monitor.options.ejectAfterRestore then .polling else .clearing
    (some (if enabled g then up else .ejecting), s)
  | .ejecting =>
    let (taken, s) := s.eject enabled g
    (some (if s.monitor.options.ejectAfterRestore then .noting taken else .clearing), s)
  | .noting taken =>
    let r := s.monitor.record g
    let snapshot := if r.snapshot.isEmpty then taken else r.snapshot
    (some .polling, s.setRecord g { r with snapshot, timer := some .poll })
  | .polling => (some (if enabled g then .returning else .polling), s)
  | .returning => (none, s.restore g)
  | .clearing => (none, s.setRecord g { s.monitor.record g with canEject := true, timer := none })

/-- Several stages without interruption. -/
def State.proceedBy (enabled : GroupId → Bool) (g : GroupId) :
    Nat → Stage → State → Option Stage × State
  | 0, stage, s => (some stage, s)
  | n + 1, stage, s =>
    match s.proceed enabled g stage with
    | (none, s) => (none, s)
    | (some stage, s) => State.proceedBy enabled g n stage s

namespace State

variable (enabled : GroupId → Bool) (s : State) (g : GroupId)

/-- A timer that fires goes through its stages up to the next pause. -/
theorem fire_retry (h : (s.monitor.record g).timer = some .retry) :
    s.fire enabled g =
      ((proceedBy enabled g 3 .waiting s).1.map fun _ => s.monitor.options.pollMs,
        (proceedBy enabled g 3 .waiting s).2) := by
  unfold fire
  rw [h]
  dsimp only
  cases hrestoring : s.monitor.options.ejectAfterRestore with
  | true =>
      by_cases hup : enabled g = true
      · simp [proceedBy, proceed, hrestoring, hup]
      · simp [proceedBy, proceed, hrestoring, hup, eject]
  | false =>
      by_cases hup : enabled g = true
      · simp [proceedBy, proceed, hrestoring, hup]
      · simp [proceedBy, proceed, hrestoring, hup, eject]

theorem fire_poll (h : (s.monitor.record g).timer = some .poll) :
    s.fire enabled g =
      ((proceedBy enabled g 2 .polling s).1.map fun _ => s.monitor.options.pollMs,
        (proceedBy enabled g 2 .polling s).2) := by
  unfold fire
  rw [h]
  by_cases hup : enabled g = true
  · simp [proceedBy, proceed, hup]
  · simp [proceedBy, proceed, hup]

/-- A timer that goes on after its stages pauses before it looks at its group. -/
theorem proceedBy_waiting :
    (proceedBy enabled g 3 .waiting s).1 = none ∨
      (proceedBy enabled g 3 .waiting s).1 = some .polling := by
  cases hrestoring : s.monitor.options.ejectAfterRestore with
  | true =>
      by_cases hup : enabled g = true
      · simp [proceedBy, proceed, hrestoring, hup]
      · simp [proceedBy, proceed, hrestoring, hup, eject]
  | false =>
      by_cases hup : enabled g = true
      · simp [proceedBy, proceed, hrestoring, hup]
      · simp [proceedBy, proceed, hrestoring, hup, eject]

theorem proceedBy_polling :
    (proceedBy enabled g 2 .polling s).1 = none ∨
      (proceedBy enabled g 2 .polling s).1 = some .polling := by
  by_cases hup : enabled g = true
  · simp [proceedBy, proceed, hup]
  · simp [proceedBy, proceed, hup]

end State

/-! ## Timers beside the state -/

structure System where
  state : State
  /-- The timers that are live, each with its group and its stage. -/
  timers : List (GroupId × Stage) := []

/-- What can happen next, with the groups that are enabled at that moment. -/
inductive Occurrence where
  /-- A request finds no live servant in a group. -/
  | report (g : GroupId) (enabled : GroupId → Bool)
  /-- One of the timers goes on. -/
  | proceed (i : Nat) (enabled : GroupId → Bool)
  /-- The table is changed by hand. -/
  | reroute (table : Routing.Table)

namespace System

def next (sys : System) : Occurrence → System
  | .report g enabled =>
    let (ejected, state) := sys.state.report enabled g
    { state, timers := if ejected then sys.timers ++ [(g, .waiting)] else sys.timers }
  | .proceed i enabled =>
    match sys.timers[i]? with
    | none => sys
    | some (g, stage) =>
      match sys.state.proceed enabled g stage with
      | (some stage, state) => { state, timers := sys.timers.set i (g, stage) }
      | (none, state) => { state, timers := sys.timers.eraseIdx i }
  | .reroute table => { sys with state := { sys.state with table } }

def after (sys : System) (run : List Occurrence) : System := run.foldl next sys

/-- One of the timers fires, and does all its stages up to the next pause at one stroke. -/
def fireAt (sys : System) (i : Nat) (enabled : GroupId → Bool) : System :=
  match sys.timers[i]? with
  | none => sys
  | some (g, _) =>
    let (pause, state) := sys.state.fire enabled g
    { state, timers := if pause.isSome then sys.timers.set i (g, .polling)
        else sys.timers.eraseIdx i }

end System

/-! ## One timer for each ejected group -/

namespace Monitor

/-- Every ejected group has a timer of its own, and no other group has one. A timer that waits is
set for a retry. Where slots come back, nothing is written down of the others, and no timer ends
without giving slots back. -/
structure Minded (m : Monitor) (timers : List (GroupId × Stage)) : Prop where
  single : (timers.map (·.1)).Nodup
  live : ∀ g, m.isEjected g = true ↔ g ∈ timers.map (·.1)
  handle : ∀ g, (m.record g).timer.isSome = m.isEjected g
  armed : ∀ g, (g, .waiting) ∈ timers → (m.record g).timer = some .retry
  blank : m.options.ejectAfterRestore = true → ∀ g, m.isEjected g = false →
    (m.record g).snapshot = []
  returns : m.options.ejectAfterRestore = true → ∀ e ∈ timers, e.2 ≠ .clearing

namespace Minded

variable {m : Monitor} {timers : List (GroupId × Stage)} {g : GroupId} {i : Nat} {stage : Stage}

theorem fresh (hrecords : m.records = []) : m.Minded [] := by
  have hrecord : ∀ g, m.record g = {} := by
    intro g
    unfold record
    rw [hrecords]
    rfl
  refine ⟨List.nodup_nil, ?_, ?_, ?_, ?_, ?_⟩
  · intro g
    simp [isEjected, hrecord]
  · intro g
    simp [isEjected, hrecord]
  · intro g hg
    cases hg
  · intro _ g _
    rw [hrecord]
  · intro _ e he
    cases he

/-- The timer of a group has a place among the timers, and the group is ejected. -/
theorem ejected (h : m.Minded timers) (hi : timers[i]? = some (g, stage)) :
    m.isEjected g = true :=
  (h.live g).mpr (List.mem_map_of_mem (List.mem_of_getElem? hi))

/-- A group has one timer, at one stage. -/
theorem only (h : m.Minded timers) (hi : timers[i]? = some (g, stage)) {stage' : Stage}
    (hmem : (g, stage') ∈ timers) : stage' = stage :=
  congrArg Prod.snd
    (List.inj_on_of_nodup_map h.single hmem (List.mem_of_getElem? hi) rfl)

/-- A group is ejected, and its timer set. -/
theorem eject (h : m.Minded timers) (hg : m.isEjected g = false) (taken : List Nat) :
    (m.setRecord g ⟨taken, false, some .retry⟩).Minded (timers ++ [(g, .waiting)]) := by
  have hnone : g ∉ timers.map (·.1) := by
    intro hmem
    rw [(h.live g).mpr hmem] at hg
    cases hg
  refine ⟨?_, ?_, timed_setRecord h.handle rfl, ?_, ?_, ?_⟩
  · rw [List.map_append]
    refine List.nodup_append.mpr ⟨h.single, List.nodup_singleton g, ?_⟩
    rintro k hk _ hnew rfl
    rw [List.mem_singleton.mp hnew] at hk
    exact hnone hk
  · intro k
    rw [List.map_append, List.mem_append]
    by_cases hkg : k = g
    · simp [hkg, isEjected_setRecord_self]
    · rw [isEjected_setRecord_ne m _ hkg, h.live k]
      simp [hkg]
  · intro k hk
    by_cases hkg : k = g
    · rw [hkg, record_setRecord_self]
    · rw [record_setRecord_ne m _ hkg]
      refine h.armed k ((List.mem_append.mp hk).resolve_right ?_)
      simp [hkg]
  · intro hrestoring k hk
    by_cases hkg : k = g
    · rw [hkg, isEjected_setRecord_self] at hk
      cases hk
    · rw [isEjected_setRecord_ne m _ hkg] at hk
      rw [record_setRecord_ne m _ hkg]
      exact h.blank hrestoring k hk
  · intro hrestoring e he
    rcases List.mem_append.mp he with hold | hnew
    · exact h.returns hrestoring e hold
    · rw [List.mem_singleton.mp hnew]
      exact nofun

/-- The group of a timer stands where the timer does. -/
theorem getElem_groups (hi : timers[i]? = some (g, stage)) :
    ∃ hlt : i < (timers.map (·.1)).length, (timers.map (·.1))[i] = g := by
  obtain ⟨hlt, hget⟩ := List.getElem?_eq_some_iff.mp hi
  rw [← List.length_map (·.1)] at hlt
  exact ⟨hlt, by simp [hget]⟩

/-- A timer goes on to another stage. -/
theorem move (h : m.Minded timers) (hi : timers[i]? = some (g, stage)) {stage' : Stage}
    (hmoved : stage' ≠ .waiting)
    (hreturns : m.options.ejectAfterRestore = true → stage' ≠ .clearing) :
    m.Minded (timers.set i (g, stage')) := by
  obtain ⟨hlt, hget⟩ := getElem_groups hi
  have hsame : (timers.set i (g, stage')).map (·.1) = timers.map (·.1) := by
    calc (timers.set i (g, stage')).map (·.1) = (timers.map (·.1)).set i g := List.map_set
      _ = (timers.map (·.1)).set i (timers.map (·.1))[i] := by rw [hget]
      _ = timers.map (·.1) := List.set_getElem_self hlt
  refine ⟨?_, ?_, h.handle, ?_, h.blank, ?_⟩
  · rw [hsame]
    exact h.single
  · intro k
    rw [hsame]
    exact h.live k
  · intro k hk
    rcases List.mem_or_eq_of_mem_set hk with hold | hnew
    · exact h.armed k hold
    · exact absurd (congrArg Prod.snd hnew).symm hmoved
  · intro hrestoring e he
    rcases List.mem_or_eq_of_mem_set he with hold | rfl
    · exact h.returns hrestoring e hold
    · exact hreturns hrestoring

/-- Something is written down of a group that is ejected still, and whose timer waits no more. -/
theorem note (h : m.Minded timers) (hg : m.isEjected g = true) {r : Record}
    (hstage : (g, .waiting) ∉ timers) (hpending : r.canEject = false)
    (htimer : r.timer.isSome = true) : (m.setRecord g r).Minded timers := by
  have hsame : ∀ k, (m.setRecord g r).isEjected k = m.isEjected k := by
    intro k
    by_cases hkg : k = g
    · rw [hkg, isEjected_setRecord_self, hpending, hg]
      rfl
    · exact isEjected_setRecord_ne m r hkg
  refine ⟨h.single, ?_, timed_setRecord h.handle (by rw [hpending, htimer]; rfl), ?_, ?_,
    h.returns⟩
  · intro k
    rw [hsame]
    exact h.live k
  · intro k hk
    have hkg : k ≠ g := by
      rintro rfl
      exact hstage hk
    rw [record_setRecord_ne m r hkg]
    exact h.armed k hk
  · intro hrestoring k hk
    rw [hsame] at hk
    have hkg : k ≠ g := by
      rintro rfl
      rw [hg] at hk
      cases hk
    rw [record_setRecord_ne m r hkg]
    exact h.blank hrestoring k hk

/-- An ejection ends together with its timer. -/
theorem finish (h : m.Minded timers) (hi : timers[i]? = some (g, stage)) {r : Record}
    (hfree : r.canEject = true) (htimer : r.timer = none)
    (hblank : m.options.ejectAfterRestore = true → r.snapshot = []) :
    (m.setRecord g r).Minded (timers.eraseIdx i) := by
  obtain ⟨hlt, hget⟩ := getElem_groups hi
  have hothers : ∀ k, k ∈ (timers.eraseIdx i).map (·.1) ↔ k ≠ g ∧ k ∈ timers.map (·.1) := by
    intro k
    rw [← List.eraseIdx_map, ← h.single.erase_getElem i hlt, hget, h.single.mem_erase_iff]
  refine ⟨?_, ?_, timed_setRecord h.handle (by rw [hfree, htimer]; rfl), ?_, ?_, ?_⟩
  · exact h.single.sublist ((List.eraseIdx_sublist _ _).map _)
  · intro k
    rw [hothers]
    by_cases hkg : k = g
    · simp [hkg, isEjected_setRecord_self, hfree]
    · rw [isEjected_setRecord_ne m r hkg, h.live k]
      simp [hkg]
  · intro k hk
    have hkg : k ≠ g := ((hothers k).mp (List.mem_map_of_mem hk)).1
    rw [record_setRecord_ne m r hkg]
    exact h.armed k (List.mem_of_mem_eraseIdx hk)
  · intro hrestoring k hk
    by_cases hkg : k = g
    · rw [hkg, record_setRecord_self]
      exact hblank hrestoring
    · rw [isEjected_setRecord_ne m r hkg] at hk
      rw [record_setRecord_ne m r hkg]
      exact h.blank hrestoring k hk
  · intro hrestoring e he
    exact h.returns hrestoring e (List.mem_of_mem_eraseIdx he)

end Minded

end Monitor

/-- A report of a group whose ejection is pending does nothing. -/
theorem State.report_of_isEjected {s : State} {g : GroupId} (h : s.monitor.isEjected g = true)
    (enabled : GroupId → Bool) : s.report enabled g = (false, s) := by
  have hpending : (s.monitor.record g).canEject = false := by
    unfold Monitor.isEjected at h
    simpa using h
  unfold State.report
  rw [hpending, Bool.and_false]
  rfl

namespace System

variable {sys : System} {g : GroupId} {i : Nat} {stage : Stage} {enabled : GroupId → Bool}

theorem options_next (sys : System) (o : Occurrence) :
    (sys.next o).state.monitor.options = sys.state.monitor.options := by
  unfold next
  cases o with
  | report g enabled =>
      unfold State.report
      dsimp only
      split
      · rfl
      · rfl
  | proceed i enabled =>
      dsimp only
      split
      · rfl
      · rename_i g stage _
        cases stage with
        | waiting | ejecting | noting | polling | returning | clearing => rfl
  | reroute table => rfl

theorem minded_next (h : sys.state.monitor.Minded sys.timers) (o : Occurrence) :
    (sys.next o).state.monitor.Minded (sys.next o).timers := by
  unfold next
  cases o with
  | report g enabled =>
      dsimp only
      by_cases hg : sys.state.monitor.isEjected g = true
      · rw [State.report_of_isEjected hg]
        exact h
      · unfold State.report
        dsimp only
        split
        · exact h.eject (by simpa using hg) _
        · exact h
  | proceed i enabled =>
      dsimp only
      split
      · exact h
      · rename_i g stage hi
        have hg := h.ejected hi
        cases stage with
        | waiting =>
            refine h.move hi ?_ fun hrestoring => ?_
            · split
              · split
                · exact nofun
                · exact nofun
              · exact nofun
            · rw [if_pos hrestoring]
              split
              · exact nofun
              · exact nofun
        | ejecting =>
            refine h.move hi ?_ fun hrestoring => ?_
            · by_cases hrestoring : sys.state.monitor.options.ejectAfterRestore = true
              · rw [if_pos hrestoring]
                exact nofun
              · rw [if_neg hrestoring]
                exact nofun
            · rw [if_pos hrestoring]
              exact nofun
        | noting taken =>
            have hpending : (sys.state.monitor.record g).canEject = false := by
              unfold Monitor.isEjected at hg
              simpa using hg
            have hnoted := h.note hg (r := { sys.state.monitor.record g with
              snapshot := if (sys.state.monitor.record g).snapshot.isEmpty then taken
                else (sys.state.monitor.record g).snapshot
              timer := some .poll }) (fun hwaiting => nomatch h.only hi hwaiting) hpending rfl
            exact hnoted.move hi nofun fun _ => nofun
        | polling =>
            refine h.move hi ?_ fun _ => ?_
            · split
              · exact nofun
              · exact nofun
            · split
              · exact nofun
              · exact nofun
        | returning => exact h.finish hi rfl rfl fun _ => rfl
        | clearing =>
            -- only where no slots come back does a timer get here
            refine h.finish hi rfl rfl fun hrestoring => ?_
            exact absurd rfl (h.returns hrestoring _ (List.mem_of_getElem? hi))
  | reroute table => exact h

theorem minded_after (h : sys.state.monitor.Minded sys.timers) (run : List Occurrence) :
    (sys.after run).state.monitor.Minded (sys.after run).timers := by
  induction run generalizing sys with
  | nil => exact h
  | cons o run ih => exact ih (minded_next h o)

theorem options_after (sys : System) (run : List Occurrence) :
    (sys.after run).state.monitor.options = sys.state.monitor.options := by
  induction run generalizing sys with
  | nil => rfl
  | cons o run ih => exact (ih (sys.next o)).trans (options_next sys o)

/-! ## Timers that are not interrupted -/

/-- A timer that goes on again and again, with nothing between, does its stages one by one. -/
theorem exists_after_replicate (hi : sys.timers[i]? = some (g, stage)) (enabled : GroupId → Bool)
    (n : Nat) : ∃ k, sys.after (List.replicate k (.proceed i enabled)) =
      match State.proceedBy enabled g n stage sys.state with
      | (none, state) => ⟨state, sys.timers.eraseIdx i⟩
      | (some stage', state) => ⟨state, sys.timers.set i (g, stage')⟩ := by
  obtain ⟨hlt, hget⟩ := List.getElem?_eq_some_iff.mp hi
  induction n generalizing sys stage with
  | zero =>
      refine ⟨0, ?_⟩
      show sys = ⟨sys.state, sys.timers.set i (g, stage)⟩
      rw [← hget, List.set_getElem_self]
  | succ n ih =>
      have hnext : sys.next (.proceed i enabled) =
          match sys.state.proceed enabled g stage with
          | (some stage', state) => ⟨state, sys.timers.set i (g, stage')⟩
          | (none, state) => ⟨state, sys.timers.eraseIdx i⟩ := by
        unfold next
        dsimp only
        rw [hi]
      unfold State.proceedBy
      match hproceed : sys.state.proceed enabled g stage with
      | (none, state) =>
          refine ⟨1, ?_⟩
          show sys.next (.proceed i enabled) = _
          rw [hnext, hproceed]
      | (some stage', state) =>
          rw [hproceed] at hnext
          have hlt' : i < (sys.timers.set i (g, stage')).length := by
            rw [List.length_set]
            exact hlt
          have hi' : (System.mk state (sys.timers.set i (g, stage'))).timers[i]? =
              some (g, stage') := List.getElem?_set_self hlt
          obtain ⟨k, hk⟩ := ih hi' hlt' (List.getElem_set_self hlt')
          refine ⟨k + 1, ?_⟩
          show (sys.next (.proceed i enabled)).after _ = _
          rw [hnext, hk]
          simp only [List.eraseIdx_set_eq, List.set_set]

/-- **A timer that is not interrupted fires.** One that waits, or pauses between two polls, does by
its stages what the state says that it does at one stroke. -/
theorem exists_fireAt (hminded : sys.state.monitor.Minded sys.timers)
    (hi : sys.timers[i]? = some (g, stage))
    (hpause : stage = .waiting ∨
      stage = .polling ∧ (sys.state.monitor.record g).timer = some .poll)
    (enabled : GroupId → Bool) :
    ∃ k, sys.after (List.replicate k (.proceed i enabled)) = sys.fireAt i enabled := by
  have hfire : ∃ n, sys.state.fire enabled g =
        ((State.proceedBy enabled g n stage sys.state).1.map fun _ =>
          sys.state.monitor.options.pollMs, (State.proceedBy enabled g n stage sys.state).2) ∧
      ((State.proceedBy enabled g n stage sys.state).1 = none ∨
        (State.proceedBy enabled g n stage sys.state).1 = some .polling) := by
    rcases hpause with rfl | ⟨rfl, hpoll⟩
    · have hretry := hminded.armed g (List.mem_of_getElem? hi)
      exact ⟨3, sys.state.fire_retry enabled g hretry, sys.state.proceedBy_waiting enabled g⟩
    · exact ⟨2, sys.state.fire_poll enabled g hpoll, sys.state.proceedBy_polling enabled g⟩
  obtain ⟨n, hfire, hstage⟩ := hfire
  obtain ⟨k, hk⟩ := exists_after_replicate hi enabled n
  refine ⟨k, ?_⟩
  unfold fireAt
  rw [hk, hi]
  dsimp only
  rw [hfire]
  match hproceed : State.proceedBy enabled g n stage sys.state with
  | (none, state) => rfl
  | (some stage', state) =>
      rw [hproceed] at hstage
      obtain rfl : stage' = .polling := Option.some.inj (hstage.resolve_left nofun)
      rfl

/-! ## Groups that are up come back -/

/-- A timer whose group is up comes closer to its end by each stage, and ends the ejection then. -/
theorem proceed_of_enabled (hi : sys.timers[i]? = some (g, stage)) (hup : enabled g = true) :
    (sys.next (.proceed i enabled)).state.monitor.isEjected g = false ∨
      ∃ stage', (sys.next (.proceed i enabled)).timers[i]? = some (g, stage') ∧
        stage'.left < stage.left := by
  obtain ⟨hlt, -⟩ := List.getElem?_eq_some_iff.mp hi
  have hnext : ∀ stage', (sys.timers.set i (g, stage'))[i]? = some (g, stage') := by
    intro stage'
    rw [List.getElem?_set_self hlt]
  unfold next
  dsimp only
  rw [hi]
  cases stage with
  | waiting =>
      refine .inr ⟨_, hnext _, ?_⟩
      rw [if_pos hup]
      split
      · decide
      · decide
  | ejecting =>
      refine .inr ⟨_, hnext _, ?_⟩
      by_cases hrestoring : sys.state.monitor.options.ejectAfterRestore = true
      · rw [if_pos hrestoring]
        exact Nat.lt_succ_self 3
      · rw [if_neg hrestoring]
        decide
  | noting taken => exact .inr ⟨_, hnext _, Nat.lt_succ_self 2⟩
  | polling =>
      refine .inr ⟨_, hnext _, ?_⟩
      rw [if_pos hup]
      decide
  | returning => exact .inl (Monitor.isEjected_setRecord_self _ g _)
  | clearing => exact .inl (Monitor.isEjected_setRecord_self _ g _)

theorem comes_back (hi : sys.timers[i]? = some (g, stage)) (hup : enabled g = true) :
    ∃ n, (sys.after (List.replicate n (.proceed i enabled))).state.monitor.isEjected g = false := by
  induction hleft : stage.left using Nat.strongRecOn generalizing sys stage with
  | _ left ih =>
      rcases proceed_of_enabled hi hup with hback | ⟨stage', hi', hless⟩
      · exact ⟨1, hback⟩
      · obtain ⟨n, hn⟩ := ih stage'.left (hleft ▸ hless) hi' rfl
        exact ⟨n + 1, hn⟩

/-- **Every ejected group has one live timer, and no other group has any.** However reports, the
stages of timers, changes of the table and servants that go up or down follow each other, beginning
with nothing ejected: no group has two timers, and a group is ejected exactly while its timer is
live, which is also when its record says so. A report of such a group answers no and changes nothing
at all. Where slots come back, none are written down of a group that is not ejected. And its timer
does bring a group back: once the group is up, the stages that are left to the timer end the
ejection. A timer that goes on from a pause without interruption does what firing it does. -/
theorem ejections_minded (s : State) (hfresh : s.monitor.records = []) (run : List Occurrence) :
    let sys := System.after ⟨s, []⟩ run
    (sys.timers.map (·.1)).Nodup ∧
    (∀ g, sys.state.monitor.isEjected g = true ↔ ∃ stage, (g, stage) ∈ sys.timers) ∧
    (∀ g, (sys.state.monitor.record g).timer.isSome = sys.state.monitor.isEjected g) ∧
    (∀ g enabled, sys.state.monitor.isEjected g = true →
      sys.state.report enabled g = (false, sys.state)) ∧
    (s.monitor.options.ejectAfterRestore = true → ∀ g, sys.state.monitor.isEjected g = false →
      (sys.state.monitor.record g).snapshot = []) ∧
    (∀ g enabled, sys.state.monitor.isEjected g = true → enabled g = true →
      ∃ i n, (sys.after (List.replicate n (.proceed i enabled))).state.monitor.isEjected g =
        false) ∧
    (∀ i g stage, sys.timers[i]? = some (g, stage) →
      stage = .waiting ∨ stage = .polling ∧ (sys.state.monitor.record g).timer = some .poll →
      ∀ enabled, ∃ n,
        sys.after (List.replicate n (.proceed i enabled)) = sys.fireAt i enabled) := by
  intro sys
  have hminded : sys.state.monitor.Minded sys.timers := minded_after (.fresh hfresh) run
  have hlive : ∀ g, sys.state.monitor.isEjected g = true ↔ ∃ stage, (g, stage) ∈ sys.timers := by
    intro g
    rw [hminded.live, List.mem_map]
    constructor
    · rintro ⟨e, he, rfl⟩
      exact ⟨e.2, he⟩
    · rintro ⟨stage, hmem⟩
      exact ⟨_, hmem, rfl⟩
  refine ⟨hminded.single, hlive, hminded.handle, ?_, ?_, ?_,
    fun i g stage hi hpause enabled => exists_fireAt hminded hi hpause enabled⟩
  · intro g enabled hg
    exact State.report_of_isEjected hg enabled
  · intro hrestoring
    refine hminded.blank ?_
    rw [options_after]
    exact hrestoring
  · intro g enabled hg hup
    obtain ⟨stage, hmem⟩ := (hlive g).mp hg
    obtain ⟨i, hlt, hget⟩ := List.getElem_of_mem hmem
    exact ⟨i, comes_back (List.getElem?_eq_some_iff.mpr ⟨hlt, hget⟩) hup⟩

/-- Two groups with a slot each, whose slots come back. -/
def twoGroups : State :=
  ⟨.direct .bytes [⟨"a", 1⟩, ⟨"b", 1⟩] [0, 1],
    { options := { autoEject := true, ejectAfterRestore := true } }⟩

/-- Group 0 is reported, and again while its timer is in the midst of its stages. -/
def interrupted : List Occurrence :=
  [.report 0 (· == 1), .proceed 0 (· == 1), .proceed 0 (· == 1), .report 0 (· == 1)]

theorem ejections_minded_interrupted :
    let sys := System.after ⟨twoGroups, []⟩ interrupted
    sys.timers.map (·.1) = [0] ∧ sys.state.report (· == 1) 0 = (false, sys.state) := by
  intro sys
  have hgroups : sys.timers.map (·.1) = [0] := by decide +kernel
  have hejected : sys.state.monitor.isEjected 0 = true := by decide +kernel
  obtain ⟨-, -, -, hreport, -⟩ := ejections_minded twoGroups rfl interrupted
  exact ⟨hgroups, hreport 0 _ hejected⟩

end System

end ShardProxy.Health
