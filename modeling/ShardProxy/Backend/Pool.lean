/-!
# Connection pools

A pool lends connections to one host. It counts what is lent out and what is being dialled as
active, and keeps active and idle connections together within its capacity. A connection is lent
to one borrower at a time; the one that came back last is lent first.

* `acquire` — an idle connection, or leave to dial one, or neither;
* `release`, `discard`, `abandon` — the three ways in which an active one ends;
* `openWith`, `close` — a closed pool lends nothing and keeps nothing.
-/

namespace ShardProxy.Backend

/-- A transport connection, counted from the first one dialled to a host. -/
abbrev LinkId := Nat

/-- A connection to a host. It keeps its number when a new link replaces a broken one. -/
structure Conn where
  id : Nat
  link : LinkId
  deriving DecidableEq, Repr

structure Pool where
  capacity : Nat
  idle : List Conn := []
  active : Nat := 0
  isOpen : Bool := false
  deriving DecidableEq, Repr

/-- What a pool says about itself. -/
structure Pool.Stats where
  active : Nat
  idle : Nat
  capacity : Nat
  deriving DecidableEq, Repr

namespace Pool

def stats (p : Pool) : Stats := ⟨p.active, p.idle.length, p.capacity⟩

/-- One more connection fits. -/
def hasRoom (p : Pool) : Bool := p.active + p.idle.length < p.capacity

/-- A connection could be dialled right now. -/
def hasCapacity (p : Pool) : Bool := p.isOpen && p.hasRoom

/-- The answer to a borrower. -/
inductive Acquired where
  | closed
  | lent (conn : Conn)
  | full
  /-- Nothing is idle and there is room: the borrower may dial. -/
  | reserved
  deriving DecidableEq, Repr

def acquire (p : Pool) : Acquired × Pool :=
  if !p.isOpen then (.closed, p)
  else match p.idle with
    | conn :: idle => (.lent conn, { p with idle, active := p.active + 1 })
    | [] => if p.hasRoom then (.reserved, { p with active := p.active + 1 }) else (.full, p)

/-- Lends an idle connection, if there is one. -/
def takeIdle (p : Pool) : Option Conn × Pool :=
  if !p.isOpen then (none, p)
  else match p.idle with
    | conn :: idle => (some conn, { p with idle, active := p.active + 1 })
    | [] => (none, p)

/-- Keeps a connection, or gives it back to be dropped. -/
def keep (p : Pool) (conn : Conn) : Option Conn × Pool :=
  if p.hasRoom then (none, { p with idle := conn :: p.idle }) else (some conn, p)

/-- Opens the pool with a first connection. -/
def openWith (p : Pool) (conn : Conn) : Option Conn × Pool := { p with isOpen := true }.keep conn

/-- Closes the pool. Idle connections are given back to be dropped. -/
def close (p : Pool) : List Conn × Pool := (p.idle, { p with idle := [], isOpen := false })

/-- Takes a connection back. -/
def release (p : Pool) (conn : Conn) : Option Conn × Pool :=
  let p := { p with active := p.active - 1 }
  if p.isOpen then p.keep conn else (some conn, p)

/-- A borrowed connection is gone. -/
def discard (p : Pool) : Pool := { p with active := p.active - 1 }

/-- The dial that room was reserved for has failed. -/
def abandon (p : Pool) : Pool := { p with active := p.active - 1 }

end Pool

end ShardProxy.Backend
