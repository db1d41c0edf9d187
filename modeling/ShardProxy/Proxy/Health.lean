import ShardProxy.Routing.Table

/-!
# Group health

A group that cannot serve a request is ejected: its slots go to the other enabled groups, and a
timer is set. When that timer fires the group is looked at again. With restoring on, the slots
that were taken come back to it as soon as it is enabled, and until then it is polled; with
restoring off they stay where they are.

* `report` — a request found no live servant in a group;
* `fire` — the timer of a group.
-/

namespace ShardProxy.Health

structure Options where
  autoEject : Bool := false
  ejectAfterRestore : Bool := false
  retryMs : Nat := 30000
  pollMs : Nat := 500
  deriving DecidableEq, Repr

/-- What the timer of an ejected group waits for. -/
inductive Timer where
  | retry | poll
  deriving DecidableEq, Repr

/-- What is remembered of a group: the slots taken from it, and whether it may be ejected. -/
structure Record where
  snapshot : List Nat := []
  canEject : Bool := true
  timer : Option Timer := none
  deriving DecidableEq, Repr

structure Monitor where
  options : Options := {}
  records : List (GroupId × Record) := []
  deriving DecidableEq, Repr

namespace Monitor

def record (m : Monitor) (g : GroupId) : Record := (m.records.lookup g).getD {}

def setRecord (m : Monitor) (g : GroupId) (r : Record) : Monitor :=
  { m with records := (g, r) :: m.records.filter (·.1 != g) }

/-- An ejection of the group is pending. -/
def isEjected (m : Monitor) (g : GroupId) : Bool := !(m.record g).canEject

/-- Cancels every timer. -/
def shutdown (m : Monitor) : Monitor :=
  { m with records := m.records.map fun (g, r) => (g, { r with timer := none }) }

end Monitor

/-- The routing table and what is remembered of its groups. -/
structure State where
  table : Routing.Table
  monitor : Monitor

namespace State

variable (enabled : GroupId → Bool)

/-- The enabled groups other than `g`, in order. -/
def targets (s : State) (g : GroupId) : List GroupId :=
  (List.range s.table.shards.length).filter fun h => h != g && enabled h

/-- Moves the slots of a group to the other enabled groups in turn. -/
def eject (s : State) (g : GroupId) : List Nat × State :=
  let (taken, table) := s.table.eject g (s.targets enabled g)
  (taken, { s with table })

def setRecord (s : State) (g : GroupId) (r : Record) : State :=
  { s with monitor := s.monitor.setRecord g r }

/-- Ejects a group that could not serve, unless its ejection is pending. The answer says whether
it was ejected, and with that its timer set. -/
def report (s : State) (g : GroupId) : Bool × State :=
  if s.monitor.options.autoEject && (s.monitor.record g).canEject then
    let (taken, s) := s.eject enabled g
    (true, s.setRecord g ⟨taken, false, some .retry⟩)
  else (false, s)

/-- Gives a group its slots back. -/
def restore (s : State) (g : GroupId) : State :=
  { s with table := s.table.restore (s.monitor.record g).snapshot g }.setRecord g {}

/-- The timer of a group fires. The answer is the delay after which it fires again, if it does. -/
def fire (s : State) (g : GroupId) : Option Nat × State :=
  let options := s.monitor.options
  match (s.monitor.record g).timer with
  | none => (none, s)
  | some .retry =>
    if options.ejectAfterRestore then
      if enabled g then (none, s.restore g)
      else
        let (taken, s) := s.eject enabled g
        let r := s.monitor.record g
        let snapshot := if r.snapshot.isEmpty then taken else r.snapshot
        (some options.pollMs, s.setRecord g { r with snapshot, timer := some .poll })
    else
      let s := if enabled g then s else (s.eject enabled g).2
      (none, s.setRecord g { s.monitor.record g with canEject := true, timer := none })
  | some .poll => if enabled g then (none, s.restore g) else (some options.pollMs, s)

end State

end ShardProxy.Health
