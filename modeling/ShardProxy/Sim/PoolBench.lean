import ShardProxy.Sim.Host
import ShardProxy.Sim.Network

/-!
# A pool on its own

One pool before one scripted host, acted on step by step. Connections that are lent out are held
under numbers, given in the order in which they are first seen outside the pool. Pauses of the
host take no time here.
-/

namespace ShardProxy.Sim

open Backend (Conn Exchange Link LinkId Pool Profile)

structure PoolBench where
  net : Network
  host : Host
  profile : Profile
  pool : Pool
  links : List (LinkId × Link) := []
  nextLink : LinkId := 0
  /-- Ended links that were written to all the same: they take nothing more. -/
  broken : List LinkId := []
  /-- The connections seen so far, in order. -/
  seen : List Nat := []
  held : List (Nat × Conn) := []

namespace PoolBench

def start (net : Network) (host : Host) (profile : Profile) : PoolBench :=
  { net, host, profile, pool := { capacity := profile.poolSize } }

def key (l : LinkId) : LinkKey := ⟨0, l⟩

def drop (b : PoolBench) (l : LinkId) : PoolBench :=
  { b with links := b.links.filter (·.1 != l), host := b.host.remove (key l) }

def changeLink (b : PoolBench) (l : LinkId) (f : Link → Link) : PoolBench :=
  { b with links := b.links.map fun p => if p.1 = l then (l, f p.2) else p }

/-- Lets the host do what it answers with. A pause leads to the answer at once. -/
def carryOut (b : PoolBench) (l : LinkId) : List Action → Nat → PoolBench
  | _, 0 | [], _ => b
  | .send bytes :: as, fuel + 1 =>
    (b.changeLink l fun k => { k with unread := k.unread ++ bytes }).carryOut l as fuel
  | .close :: as, fuel + 1 =>
    (b.changeLink l fun k => { k with ending := some .closed }).carryOut l as fuel
  | .pause m :: as, fuel + 1 =>
    let (more, host) := b.host.resume (key l) m
    { b with host }.carryOut l (more ++ as) fuel

def brokenPipe : Failure := .network "Broken pipe (os error 32)"

/-- One exchange on a link. -/
def exchange (b : PoolBench) (l : LinkId) (request : Bytes) : Except Failure Bytes × PoolBench :=
  match b.links.lookup l with
  | none => (.error brokenPipe, b)
  | some link =>
    if b.broken.contains l then (.error brokenPipe, b)
    else
      let b := if link.ending.isSome then { b with broken := l :: b.broken } else b
      match link.ending with
      | some (.reset text) => (.error (.network text), b)
      | _ =>
        let (as, host) := b.host.receive (key l) request
        let b := { b with host }.carryOut l as (4 * request.length + 4)
        let (verdict, link) := ((b.links.lookup l).getD link).read .start
        let b := b.changeLink l fun _ => link
        match verdict with
        | .reply bytes => (.ok bytes, b)
        | .failed why => (.error why, b)
        | .waiting _ => (.error .closedByBackend, b)

/-- Makes a connection to the host. -/
def connect (b : PoolBench) : Except Failure LinkId × PoolBench :=
  let reach := ((Net.Address.parse? b.profile.address).map b.net.reach).getD
    (.refused Network.unreachable)
  if !b.host.isUp || b.net == .isolated then
    (.error (match reach with
      | .refused text => .network text
      | .silent => b.profile.dialTimedOut), b)
  else
    let l := b.nextLink
    let b := { b with
      host := b.host.accept (key l), links := b.links ++ [(l, Link.quiet)], nextLink := l + 1 }
    match b.profile.password with
    | none => (.ok l, b)
    | some password =>
      match b.exchange l (Profile.authRequest password) with
      | (.error why, b) => (.error why, b.drop l)
      | (.ok reply, b) =>
        match b.profile.vet reply with
        | none => (.ok l, b)
        | some why => (.error why, b.drop l)

/-- What an action on the pool leads to. -/
inductive Result where
  | done
  | lent (number : Nat)
  | none
  | reply (bytes : Bytes)
  | capacity (n : Nat)
  | failed (why : Failure)
  /-- The connection named is not held. -/
  | notHeld

/-- Numbers a connection that was lent out. -/
def hold (b : PoolBench) (c : Conn) : Result × PoolBench :=
  let seen := if b.seen.contains c.id then b.seen else b.seen ++ [c.id]
  let number := seen.idxOf c.id + 1
  (.lent number, { b with seen, held := (number, c) :: b.held })

def dropAll (b : PoolBench) (conns : List Conn) : PoolBench :=
  conns.foldl (fun b c => b.drop c.link) b

def openPool (b : PoolBench) : Result × PoolBench :=
  match b.connect with
  | (.error why, b) => (.failed why, b)
  | (.ok l, b) =>
    let (dropped, pool) := b.pool.openWith ⟨l, l⟩
    (.done, { b with pool }.dropAll dropped.toList)

def closePool (b : PoolBench) : Result × PoolBench :=
  let (dropped, pool) := b.pool.close
  (.done, { b with pool }.dropAll dropped)

def acquire (b : PoolBench) : Result × PoolBench :=
  let (outcome, pool) := b.pool.acquire
  let b := { b with pool }
  match outcome with
  | .closed => (.failed b.profile.poolClosed, b)
  | .lent c => b.hold c
  | .full => (.none, b)
  | .reserved =>
    match b.connect with
    | (.ok l, b) => b.hold ⟨l, l⟩
    | (.error why, b) => (.failed why, { b with pool := b.pool.abandon })

def takeIdle (b : PoolBench) : Result × PoolBench :=
  match b.pool.takeIdle with
  | (some c, pool) => { b with pool }.hold c
  | (none, pool) => (.none, { b with pool })

/-- Acts on a connection that is held. -/
def onHeld (b : PoolBench) (number : Nat) (f : PoolBench → Conn → Result × PoolBench) :
    Result × PoolBench :=
  match b.held.lookup number with
  | none => (.notHeld, b)
  | some c => f b c

def letGo (b : PoolBench) (number : Nat) : PoolBench :=
  { b with held := b.held.filter (·.1 != number) }

def release (b : PoolBench) (number : Nat) : Result × PoolBench :=
  b.onHeld number fun b c =>
    let (dropped, pool) := b.pool.release c
    (.done, ({ b with pool }.letGo number).dropAll dropped.toList)

def discard (b : PoolBench) (number : Nat) : Result × PoolBench :=
  b.onHeld number fun b c => (.done, ({ b with pool := b.pool.discard }.letGo number).drop c.link)

def repair (b : PoolBench) (number : Nat) : Result × PoolBench :=
  b.onHeld number fun b c =>
    match b.connect with
    | (.error why, b) => (.failed why, b)
    | (.ok link, b) => (.done, { (b.letGo number).drop c.link with
        held := (number, { c with link }) :: (b.letGo number).held })

def request (b : PoolBench) (number : Nat) (bytes : Bytes) : Result × PoolBench :=
  b.onHeld number fun b c =>
    match b.exchange c.link bytes with
    | (.ok reply, b) => (.reply reply, b)
    | (.error why, b) => (.failed why, b)

def kill (b : PoolBench) : Result × PoolBench :=
  let ending := b.host.ending
  let (keys, host) := b.host.kill
  let finish (b : PoolBench) (k : LinkKey) : PoolBench :=
    b.changeLink k.link fun l => { l with ending := some ending }
  (.done, keys.foldl finish { b with host })

def revive (b : PoolBench) : Result × PoolBench :=
  (.done, { b with host := { b.host with isUp := true } })

end PoolBench

end ShardProxy.Sim
