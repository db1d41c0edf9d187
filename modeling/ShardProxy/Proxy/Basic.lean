import ShardProxy.Backend.Servant
import ShardProxy.Config.Basic
import ShardProxy.Group.Selection
import ShardProxy.Proxy.Health

/-!
# The proxy

Everything that client sessions share: the routing table, the groups with their servants, what
is remembered of their health, the password, and the file that mapping changes are written to.
-/

namespace ShardProxy

/-- The position of a servant among all servants. -/
abbrev ServantId := Nat

namespace Group

/-- The servants of a group and how one is picked for a request. -/
structure Members where
  policy : Policy
  masters : List ServantId := []
  replicas : List ServantId := []
  cursors : Cursors := {}
  deriving DecidableEq, Repr

namespace Members

/-- Masters first, then replicas. -/
def all (m : Members) : List ServantId := m.masters ++ m.replicas

/-- A group is enabled while one of its servants is live. -/
def isEnabled (live : ServantId → Bool) (m : Members) : Bool := m.all.any live

def select (live : ServantId → Bool) (mutating : Bool) (m : Members) : Option ServantId × Members :=
  let (s, cursors) := Cursors.select live m.masters m.replicas m.policy mutating m.cursors
  (s, { m with cursors })

def add (m : Members) (master : Bool) (s : ServantId) : Members :=
  if master then { m with masters := m.masters ++ [s] }
  else { m with replicas := m.replicas ++ [s] }

end Members

end Group

/-- Where mapping changes are written. -/
inductive StateFile where
  | none
  /-- A path that can be written, and what was last written. -/
  | writable (saved : Option Config.MappingState)
  | unwritable
  deriving DecidableEq, Repr

structure Proxy where
  password : Option Bytes := none
  stateFile : StateFile := .none
  table : Routing.Table
  members : List Group.Members
  monitor : Health.Monitor := {}
  servants : Array Backend.Servant

namespace Proxy

def requiresAuth (p : Proxy) : Bool := p.password.isSome

def isLive (p : Proxy) (s : ServantId) : Bool := (p.servants[s]?).any (·.active)

def membersOf (p : Proxy) (g : GroupId) : List ServantId := (p.members[g]?.map (·.all)).getD []

def isEnabled (p : Proxy) (g : GroupId) : Bool := (p.members[g]?).any (·.isEnabled p.isLive)

/-- Picks a live servant of a group. -/
def select (p : Proxy) (g : GroupId) (mutating : Bool) : Option ServantId × Proxy :=
  match p.members[g]? with
  | none => (none, p)
  | some m =>
    let (s, m) := m.select p.isLive mutating
    (s, { p with members := p.members.set g m })

def health (p : Proxy) : Health.State := ⟨p.table, p.monitor⟩

def withHealth (p : Proxy) (h : Health.State) : Proxy :=
  { p with table := h.table, monitor := h.monitor }

/-- A request found no live servant in a group. The answer says whether the group was ejected. -/
def report (p : Proxy) (g : GroupId) : Bool × Proxy :=
  let (ejected, h) := p.health.report p.isEnabled g
  (ejected, p.withHealth h)

/-- The health timer of a group fires. The answer is the delay until it fires again. -/
def fireHealth (p : Proxy) (g : GroupId) : Option Nat × Proxy :=
  let (again, h) := p.health.fire p.isEnabled g
  (again, p.withHealth h)

end Proxy

end ShardProxy
