import ShardProxy.Backend.Link

/-!
# Servants

A servant is one host of a group: its pool, whether it is active, the requests that wait for a
connection, first come first served, and the tasks in progress. A task moves when an event reaches
it, and only then; what the servant wants from its surroundings, such as a dial or a timer, it
says by effects. So a run of a servant is a sequence of events, in any order that its
surroundings choose.

* `Task` — what is in progress, and how far it has come;
* `Event`, `Effect` — what reaches a servant and what it asks for;
* `step` — what one event does.
-/

namespace ShardProxy.Backend

abbrev RequestId := Nat
abbrev TaskId := Nat

/-- A connection in the making. -/
inductive Connecting where
  | dialing (link : LinkId)
  | authenticating (link : LinkId) (exchange : Exchange)
  deriving DecidableEq, Repr

def Connecting.link : Connecting → LinkId
  | dialing l => l
  | authenticating l _ => l

/-- Who wants a servant started. -/
inductive Origin where
  | caller (call : Nat)
  /-- A reconnect loop of the generation in which it began. -/
  | loop (generation : Nat)
  deriving DecidableEq, Repr

/-- A request to forward, and where its reply goes. -/
structure Errand where
  id : RequestId
  request : Bytes
  deriving DecidableEq, Repr

inductive Task where
  /-- About to see whether the servant is active. -/
  | entering (e : Errand)
  /-- About to ask the pool. -/
  | acquiring (e : Errand)
  /-- The pool was full: about to join the queue. -/
  | lining (e : Errand)
  | queued (e : Errand)
  /-- Room is reserved, and a connection is being made. -/
  | connecting (e : Errand) (c : Connecting)
  /-- A connection was handed over. -/
  | handed (e : Errand) (conn : Conn)
  | exchanging (e : Errand) (conn : Conn) (x : Exchange)
  /-- The exchange failed: a new link is being made for its connection. -/
  | repairing (e : Errand) (conn : Conn) (why : Failure) (c : Connecting)
  /-- About to ask the pool for a connection for the first in the queue. -/
  | refilling
  | refillConnecting (c : Connecting)
  /-- Starting: the first connection of the pool is being made. -/
  | opening (o : Origin) (c : Connecting)
  /-- Starting: the connection that is watched is being made. -/
  | linking (o : Origin) (c : Connecting)
  /-- Watching a link that carries no requests. -/
  | watching (link : LinkId) (generation : Nat)
  /-- Waiting to reconnect. -/
  | retrying (generation : Nat)
  deriving DecidableEq, Repr

namespace Task

def connecting? : Task → Option Connecting
  | connecting _ c | repairing _ _ _ c | refillConnecting c | opening _ c | linking _ c => some c
  | _ => none

/-- The link whose bytes the task reads, or whose dial it awaits. -/
def link? : Task → Option LinkId
  | exchanging _ conn _ => some conn.link
  | watching link _ => some link
  | t => t.connecting?.map (·.link)

end Task

inductive Event where
  | execute (e : Errand)
  /-- A task that can go on does. -/
  | wake (task : TaskId)
  | dialed (link : LinkId) (failure : Option Failure)
  | received (link : LinkId) (bytes : Bytes)
  | ended (link : LinkId) (ending : Ending)
  /-- The timer of a task. -/
  | alarm (task : TaskId)
  | start (call : Nat)
  /-- Begin to reconnect: the rest of a call that enables a group, for a servant that it could not
  start. -/
  | reconnect
  | stop
  deriving DecidableEq, Repr

inductive Effect where
  | dial (link : LinkId)
  /-- Writes on a link, for a request or, where none is named, to present the password. -/
  | send (link : LinkId) (sender : Option RequestId) (bytes : Bytes)
  | drop (link : LinkId)
  | wake (task : TaskId)
  | alarm (task : TaskId) (ms : Nat)
  | answer (request : RequestId) (result : Except Failure Bytes)
  | started (call : Nat) (failure : Option Failure)

structure Servant where
  profile : Profile
  pool : Pool
  active : Bool := false
  /-- Attempts to reconnect since the last start. -/
  attempts : Nat := 0
  /-- How often the servant was stopped. -/
  generation : Nat := 0
  /-- The tasks that wait for a connection, the oldest first. -/
  waiting : List TaskId := []
  tasks : List (TaskId × Task) := []
  links : List (LinkId × Link) := []
  nextTask : TaskId := 0
  nextLink : LinkId := 0
  /-- What was asked for in the step so far. -/
  effects : List Effect := []

namespace Servant

def ofProfile (p : Profile) : Servant := { profile := p, pool := { capacity := p.poolSize } }

/-! ## Bookkeeping -/

def emit (s : Servant) (e : Effect) : Servant := { s with effects := s.effects ++ [e] }

def task? (s : Servant) (t : TaskId) : Option Task := s.tasks.lookup t

def setTask (s : Servant) (t : TaskId) (task : Task) : Servant :=
  { s with tasks := s.tasks.map fun p => if p.1 = t then (t, task) else p }

def endTask (s : Servant) (t : TaskId) : Servant := { s with tasks := s.tasks.filter (·.1 != t) }

/-- Adds a task under the next number. -/
def spawn (s : Servant) (task : Task) : Servant :=
  { s with tasks := s.tasks ++ [(s.nextTask, task)], nextTask := s.nextTask + 1 }

/-- Adds a task that can go on at once. -/
def spawnReady (s : Servant) (task : Task) : Servant := (s.spawn task).emit (.wake s.nextTask)

def link? (s : Servant) (l : LinkId) : Option Link := s.links.lookup l

def setLink (s : Servant) (l : LinkId) (link : Link) : Servant :=
  { s with links := s.links.map fun p => if p.1 = l then (l, link) else p }

/-- Closes a link on our side; what it holds is lost. -/
def dropLink (s : Servant) (l : LinkId) : Servant :=
  { s with links := s.links.filter (·.1 != l) }.emit (.drop l)

/-- Drops the connections that a pool gave back. -/
def dropAll (s : Servant) (conns : List Conn) : Servant :=
  conns.foldl (fun s c => s.dropLink c.link) s

/-- The task that reads a link. -/
def reader? (s : Servant) (l : LinkId) : Option (TaskId × Task) :=
  s.tasks.find? (·.2.link? == some l)

/-- Ends a request with its result. -/
def answer (s : Servant) (t : TaskId) (e : Errand) (result : Except Failure Bytes) : Servant :=
  (s.endTask t).emit (.answer e.id result)

/-- Begins to dial; `task` says what for. -/
def dial (s : Servant) (t : TaskId) (task : Connecting → Task) : Servant :=
  ({ s with nextLink := s.nextLink + 1 }.setTask t (task (.dialing s.nextLink))).emit
    (.dial s.nextLink)

/-! ## Connections that come free -/

/-- Hands a sound connection to the oldest waiter, or else back to the pool. -/
def complete (s : Servant) (conn : Conn) : Servant :=
  match s.waiting with
  | w :: rest =>
    let s := { s with waiting := rest }
    match s.task? w with
    | some (.queued e) => (s.setTask w (.handed e conn)).emit (.wake w)
    | _ => s
  | [] =>
    let (dropped, pool) := s.pool.release conn
    { s with pool }.dropAll dropped.toList

/-- Fails the oldest waiter. -/
def failWaiter (s : Servant) : Servant :=
  match s.waiting with
  | [] => s
  | w :: rest =>
    let s := { s with waiting := rest }
    match s.task? w with
    | some (.queued e) => s.answer w e (.error s.profile.unavailable)
    | _ => s

/-- Fails every waiter. -/
def failWaiters (s : Servant) : Servant := s.waiting.foldl (fun s _ => s.failWaiter) s

/-- Stops serving: inactive, with a closed pool and no waiters. -/
def shutdown (s : Servant) : Servant :=
  let (dropped, pool) := s.pool.close
  ({ s with active := false, pool }.dropAll dropped).failWaiters

/-! ## Exchanges -/

/-- A failed exchange leaves a broken connection, to which a new link is dialled. -/
def exchangeFailed (s : Servant) (t : TaskId) (e : Errand) (conn : Conn) (why : Failure) :
    Servant :=
  s.dial t (.repairing e conn why)

/-- Lets an exchange read what has come in. -/
def continueExchange (s : Servant) (t : TaskId) (e : Errand) (conn : Conn) (x : Exchange) :
    Servant :=
  match s.link? conn.link with
  | none => s
  | some link =>
    let (verdict, link) := link.read x
    let s := s.setLink conn.link link
    match verdict with
    | .waiting x => s.setTask t (.exchanging e conn x)
    | .reply bytes => (s.complete conn).answer t e (.ok bytes)
    | .failed why => s.exchangeFailed t e conn why

/-- Sends the request. A link that was reset takes nothing more. -/
def beginExchange (s : Servant) (t : TaskId) (e : Errand) (conn : Conn) : Servant :=
  match (s.link? conn.link).bind (·.ending) with
  | some (.reset text) => s.exchangeFailed t e conn (.network text)
  | _ =>
    let s := (s.setTask t (.exchanging e conn .start)).emit (.send conn.link (some e.id) e.request)
    let s := match s.profile.timeoutMs with
      | some ms => s.emit (.alarm t ms)
      | none => s
    s.continueExchange t e conn .start

/-! ## Starting and reconnecting -/

/-- Goes on to wait for the next attempt, unless the servant was stopped since the loop began or
no attempt is left. -/
def retryOrEnd (s : Servant) (t : TaskId) (generation : Nat) : Servant :=
  if s.attempts < s.profile.retryLimit ∧ s.generation = generation then
    (s.setTask t (.retrying generation)).emit (.alarm t s.profile.retryMs)
  else s.endTask t

/-- Begins a reconnect loop. -/
def reconnect (s : Servant) (generation : Nat) : Servant :=
  (s.spawn (.retrying generation)).retryOrEnd s.nextTask generation

/-- Begins to start. -/
def begin (s : Servant) (origin : Origin) : Servant :=
  ({ s with nextLink := s.nextLink + 1 }.spawn (.opening origin (.dialing s.nextLink))).emit
    (.dial s.nextLink)

def startSucceeded (s : Servant) (t : TaskId) : Origin → Servant
  | .caller call => (s.endTask t).emit (.started call none)
  | .loop _ => s.endTask t

def startFailed (s : Servant) (t : TaskId) (why : Failure) : Origin → Servant
  | .caller call => (s.endTask t).emit (.started call (some why))
  | .loop generation => s.retryOrEnd t generation

/-- Sees to a watched link: its bytes are ignored, and its end shuts the servant down until it is
reached again. -/
def continueWatching (s : Servant) (t : TaskId) (link : LinkId) (generation : Nat) : Servant :=
  match (s.link? link).bind (·.ending) with
  | some _ => (((s.dropLink link).endTask t).shutdown).reconnect generation
  | none => s.setLink link .quiet

/-! ## Connections in the making -/

/-- A connection was made on `link`. -/
def connected (s : Servant) (t : TaskId) (link : LinkId) : Task → Servant
  | .connecting e _ => s.beginExchange t e ⟨link, link⟩
  | .repairing e conn why _ =>
    ((s.dropLink conn.link).complete { conn with link }).answer t e (.error why)
  | .refillConnecting _ => (s.endTask t).complete ⟨link, link⟩
  | .opening origin _ =>
    let (dropped, pool) := s.pool.openWith ⟨link, link⟩
    ({ s with pool }.dropAll dropped.toList).dial t (.linking origin)
  | .linking origin _ =>
    let s := { s with attempts := 0, active := true }.startSucceeded t origin
    (s.spawn (.watching link s.generation)).continueWatching s.nextTask link s.generation
  | _ => s

/-- No connection could be made. -/
def connectFailed (s : Servant) (t : TaskId) (why : Failure) : Task → Servant
  | .connecting e _ => { s with pool := s.pool.abandon }.answer t e (.error why)
  | .repairing e conn cause _ =>
    let s := { s with pool := s.pool.discard }.dropLink conn.link
    let s := if s.waiting.isEmpty then s else s.spawnReady .refilling
    s.answer t e (.error cause)
  | .refillConnecting _ => ({ s with pool := s.pool.abandon }.endTask t).failWaiter
  | .opening origin _ => s.startFailed t why origin
  | .linking origin _ =>
    let (dropped, pool) := s.pool.close
    ({ s with pool }.dropAll dropped).startFailed t why origin
  | _ => s

/-- The same task with its connection further on. -/
def withConnecting (c : Connecting) : Task → Task
  | .connecting e _ => .connecting e c
  | .repairing e conn why _ => .repairing e conn why c
  | .refillConnecting _ => .refillConnecting c
  | .opening o _ => .opening o c
  | .linking o _ => .linking o c
  | t => t

/-- Lets the exchange that presents the password read what has come in. -/
def continueAuth (s : Servant) (t : TaskId) (task : Task) (l : LinkId) (x : Exchange) : Servant :=
  match s.link? l with
  | none => s
  | some link =>
    let (verdict, link) := link.read x
    let s := s.setLink l link
    match verdict with
    | .waiting x => s.setTask t (withConnecting (.authenticating l x) task)
    | .failed why => (s.dropLink l).connectFailed t why task
    | .reply bytes =>
      match s.profile.vet bytes with
      | none => s.connected t l task
      | some why => (s.dropLink l).connectFailed t why task

/-- The dial of a link succeeded. -/
def dialSucceeded (s : Servant) (t : TaskId) (task : Task) (l : LinkId) : Servant :=
  let s := { s with links := s.links ++ [(l, Link.quiet)] }
  match s.profile.password with
  | none => s.connected t l task
  | some password =>
    (s.emit (.send l none (Profile.authRequest password))).continueAuth t task l .start

/-! ## Steps -/

/-- A task that can go on does. -/
def wake (s : Servant) (t : TaskId) : Task → Servant
  | .entering e =>
    if s.active then (s.setTask t (.acquiring e)).emit (.wake t)
    else s.answer t e (.error s.profile.unavailable)
  | .acquiring e =>
    let (outcome, pool) := s.pool.acquire
    let s := { s with pool }
    match outcome with
    | .closed => s.answer t e (.error s.profile.poolClosed)
    | .lent conn => s.beginExchange t e conn
    | .full => (s.setTask t (.lining e)).emit (.wake t)
    | .reserved => s.dial t (.connecting e)
  | .lining e =>
    match s.pool.takeIdle with
    | (some conn, pool) => { s with pool }.beginExchange t e conn
    | (none, _) =>
      if s.pool.hasCapacity then (s.setTask t (.entering e)).emit (.wake t)
      else if s.active then { s with waiting := s.waiting ++ [t] }.setTask t (.queued e)
      else s.answer t e (.error s.profile.unavailable)
  | .handed e conn => s.beginExchange t e conn
  | .refilling =>
    let (outcome, pool) := s.pool.acquire
    let s := { s with pool }
    match outcome with
    | .closed => (s.endTask t).failWaiter
    | .lent conn => (s.endTask t).complete conn
    | .full => s.endTask t
    | .reserved => s.dial t .refillConnecting
  -- the servant was stopped since
  | .watching link generation =>
    if s.generation = generation then s else (s.dropLink link).endTask t
  | .retrying generation => if s.generation = generation then s else s.endTask t
  | _ => s

/-- Something came in on a link, or its end did: the task that reads it goes on. -/
def linkMoved (s : Servant) (l : LinkId) : Servant :=
  match s.reader? l with
  | some (t, .exchanging e conn x) => s.continueExchange t e conn x
  | some (t, .watching link generation) => s.continueWatching t link generation
  | some (t, task) =>
    match task.connecting? with
    | some (.authenticating link x) => s.continueAuth t task link x
    | _ => s
  | none => s

/-- The task is to end when the servant is stopped. -/
def minds : Task → Bool
  | .watching .. | .retrying _ => true
  | _ => false

/-- Tells the tasks that watch or wait to reconnect of a stop. Each ends when it goes on; but where
its link has ended or its pause is over, it may see that first. -/
def signal (s : Servant) : Servant :=
  (s.tasks.filter (minds ·.2)).foldl (fun s q => s.emit (.wake q.1)) s

/-- What one event does. -/
def react (s : Servant) : Event → Servant
  | .execute e => s.spawnReady (.entering e)
  | .wake t =>
    match s.task? t with
    | some task => s.wake t task
    | none => s
  | .dialed l failure =>
    match s.reader? l with
    | some (t, task) =>
      match failure with
      | none => s.dialSucceeded t task l
      | some why => s.connectFailed t why task
    | none => s
  | .received l bytes =>
    match s.link? l with
    | some link => (s.setLink l { link with unread := link.unread ++ bytes }).linkMoved l
    | none => s
  | .ended l ending =>
    match s.link? l with
    | some link => (s.setLink l { link with ending := some (link.ending.getD ending) }).linkMoved l
    | none => s
  | .alarm t =>
    match s.task? t with
    | some (.exchanging e conn _) => s.exchangeFailed t e conn s.profile.exchangeTimedOut
    | some (.retrying generation) =>
      { s with attempts := s.attempts + 1 }.dial t (.opening (.loop generation))
    | _ => s
  | .start call => s.begin (.caller call)
  | .reconnect => s.reconnect s.generation
  | .stop => { s.shutdown with generation := s.generation + 1 }.signal

/-- One event, and what the servant then asks for. -/
def step (s : Servant) (e : Event) : Servant × List Effect :=
  let s := s.react e
  ({ s with effects := [] }, s.effects)

/-! ## What others see -/

def stats (s : Servant) : Pool.Stats := s.pool.stats

def pending (s : Servant) : Nat := s.waiting.length

end Servant

end ShardProxy.Backend
