/-!
# Selection of servants

A group picks a servant for each request by walking the targeted list once from a round-robin
cursor, past inactive servants, and then the other list once. Cursors count modulo `2^64`.
-/

namespace ShardProxy.Group

/-- The policies that a configuration may choose. -/
inductive Policy where
  | masterOnly | readBalance
  deriving DecidableEq, Repr, Inhabited

namespace Policy

def name : Policy → String
  | masterOnly => "master_only"
  | readBalance => "read_balance"

def ofName? (s : String) : Option Policy := [masterOnly, readBalance].find? (·.name == s)

end Policy

/-- The round-robin cursors of the two lists and the number of reads so far. -/
structure Cursors where
  masters : UInt64 := 0
  replicas : UInt64 := 0
  reads : UInt64 := 0
  deriving DecidableEq, Repr

/-- The first live entry of the walk from a cursor. -/
def firstLive {α : Type} (live : α → Bool) (servants : List α) (cursor : UInt64) : Option α :=
  (List.range servants.length).findSome? fun offset =>
    (servants[(cursor + offset.toUInt64).toNat % servants.length]?).filter live

/-- One walk. It moves the cursor on unless the list is empty. -/
def walk {α : Type} (live : α → Bool) (servants : List α) (cursor : UInt64) : Option α × UInt64 :=
  if servants.isEmpty then (none, cursor) else (firstLive live servants cursor, cursor + 1)

namespace Cursors

variable {α : Type} (live : α → Bool) (masters replicas : List α)

/-- A live master, or else a live replica. -/
def pickMaster (c : Cursors) : Option α × Cursors :=
  match walk live masters c.masters with
  | (some s, next) => (some s, { c with masters := next })
  | (none, next) =>
    let (s, next') := walk live replicas c.replicas
    (s, { c with masters := next, replicas := next' })

/-- A live replica, or else a live master. -/
def pickReplica (c : Cursors) : Option α × Cursors :=
  match walk live replicas c.replicas with
  | (some s, next) => (some s, { c with replicas := next })
  | (none, next) =>
    let (s, next') := walk live masters c.masters
    (s, { c with replicas := next, masters := next' })

/-- Under `masterOnly` every request goes to a master. Under `readBalance` writes do, and reads
alternate, the first one to a master. -/
def select (policy : Policy) (mutating : Bool) (c : Cursors) : Option α × Cursors :=
  match policy with
  | .masterOnly => pickMaster live masters replicas c
  | .readBalance =>
    if mutating then pickMaster live masters replicas c
    else
      let c := { c with reads := c.reads + 1 }
      if c.reads % 2 = 0 then pickReplica live masters replicas c
      else pickMaster live masters replicas c

end Cursors

end ShardProxy.Group
