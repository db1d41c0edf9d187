import ShardProxy.Proxy.Dispatch
import ShardProxy.Proxy.Session
import ShardProxy.Sim.Host
import ShardProxy.Sim.Network

/-!
# A world in memory

The proxy together with what surrounds it: hosts, the network between them, clients, and a clock.
What is due is kept in an agenda by time; things due at one time happen in the order in which they
were entered. Every servant, host and session moves by its own steps, and the world only carries
what one of them asks for to the other.

* `happen` — the next thing that is due;
* `run` — one thing after another, until some condition holds or nothing more is due.
-/

namespace ShardProxy.Sim

open Wire (Message)
open Backend (RequestId LinkId Ending)

inductive Happening where
  | servant (s : ServantId) (e : Backend.Event)
  /-- Bytes reach a host. -/
  | arrive (host : Nat) (key : LinkKey) (bytes : Bytes)
  /-- A host goes on with a request that it had held back. -/
  | resume (host : Nat) (key : LinkKey) (m : Message)
  /-- The proxy closed a connection. -/
  | hangUp (host : Nat) (key : LinkKey)
  /-- The health timer of a group. -/
  | health (g : GroupId)
  /-- The session of a client may be able to go on. -/
  | client (name : String)

/-- Where the session of a client stands. -/
inductive Phase where
  | reading
  /-- Replies are awaited; a call without a number failed at once. -/
  | awaiting (merge : Proxy.Merge) (ids : List (Option RequestId))
  | over
  deriving DecidableEq

/-- A connection from a client, with both of its directions. -/
structure Client where
  session : Session
  phase : Phase
  /-- Replies that the session has not written yet. -/
  outgoing : Bytes := []
  /-- What the client sent and the session has not read. -/
  inbound : Bytes := []
  inboundEnd : Option Ending := none
  /-- What the session wrote and the client has not read. -/
  outbound : Bytes := []
  outboundEnded : Bool := false

namespace Client

/-- The session writes what it has gathered. Nothing reaches a client that has gone. -/
def flush (c : Client) : Client :=
  { c with
    outbound := if c.inboundEnd.isSome then c.outbound else c.outbound ++ c.outgoing
    outgoing := [] }

def finish (c : Client) : Client := { c with phase := .over, outboundEnded := true }

/-- The session reads, if anything is there. At the end of what was sent it is over. -/
def read (c : Client) : Bool × Client :=
  if c.inbound.isEmpty then (false, if c.inboundEnd.isSome then c.finish else c)
  else
    let n := c.session.room
    (true, { c with session := c.session.feed (c.inbound.take n), inbound := c.inbound.drop n })

end Client

structure World where
  net : Network
  clock : Nat := 0
  agenda : List (Nat × Happening) := []
  hosts : Array Host := #[]
  proxy : Proxy
  nextRequest : RequestId := 0
  nextCall : Nat := 0
  answers : List (RequestId × Except Failure Bytes) := []
  starts : List (Nat × Option Failure) := []
  /-- Groups that are being enabled: the start calls of their servants. -/
  enablings : List (List (Nat × ServantId)) := []
  clients : List (String × Client) := []
  maxConnections : Nat := 10
  accepting : Bool := false

namespace World

/-! ## The agenda -/

def insertAt (time : Nat) (h : Happening) : List (Nat × Happening) → List (Nat × Happening)
  | [] => [(time, h)]
  | e :: rest => if e.1 ≤ time then e :: insertAt time h rest else (time, h) :: e :: rest

/-- Enters something that is due after a delay in milliseconds. -/
def post (w : World) (delay : Nat) (h : Happening) : World :=
  { w with agenda := insertAt (w.clock + delay) h w.agenda }

def postServant (w : World) (delay : Nat) (s : ServantId) (e : Backend.Event) : World :=
  w.post delay (.servant s e)

/-! ## Hosts -/

def servant? (w : World) (s : ServantId) : Option Backend.Servant := w.proxy.servants[s]?

def hostAt? (w : World) (address : String) : Option Nat := w.hosts.findIdx? (·.address == address)

/-- The host of a servant. -/
def hostOf? (w : World) (s : ServantId) : Option Nat :=
  (w.servant? s).bind fun v => w.hostAt? v.profile.address

/-- The servants of a host. -/
def servantsOf (w : World) (host : Nat) : List ServantId :=
  (List.range w.proxy.servants.size).filter fun s => w.hostOf? s == some host

def setHost (w : World) (i : Nat) (h : Host) : World :=
  { w with hosts := w.hosts.setIfInBounds i h }

/-- Carries out what a host does with a connection. -/
def actions (w : World) (host : Nat) (key : LinkKey) (as : List Action) : World :=
  as.foldl (fun w a => match a with
    | .send bytes => w.postServant 0 key.servant (.received key.link bytes)
    | .close => w.postServant 0 key.servant (.ended key.link .closed)
    | .pause m => w.post Host.pauseMs (.resume host key m)) w

/-- Dials the host of a servant. -/
def dial (w : World) (s : ServantId) (v : Backend.Servant) (l : LinkId) : World :=
  let refuse (text : String) : World := w.postServant 0 s (.dialed l (some (.network text)))
  let listening := (w.hostAt? v.profile.address).bind fun i =>
    (w.hosts[i]?).bind fun h => if h.isUp && w.net != .isolated then some (i, h) else none
  match listening with
  | some (i, h) => (w.setHost i (h.accept ⟨s, l⟩)).postServant 0 s (.dialed l none)
  | none =>
    match Net.Address.parse? v.profile.address with
    | none => refuse Network.unreachable
    | some a =>
      match w.net.reach a with
      | .refused text => refuse text
      | .silent => w.postServant v.profile.connectMs s (.dialed l (some v.profile.dialTimedOut))

/-! ## Servants -/

/-- The clients whose sessions await replies may be able to go on. -/
def pokeClients (w : World) : World := w.clients.foldl (fun w c => w.post 0 (.client c.1)) w

/-- Once all servants of a group have been started, those that failed begin to reconnect. -/
def finishEnabling (w : World) : World :=
  let finished (calls : List (Nat × ServantId)) : Bool :=
    calls.all fun c => (w.starts.lookup c.1).isSome
  let failed := (w.enablings.filter finished).flatten.filter fun c =>
    (w.starts.lookup c.1).any (·.isSome)
  failed.foldl (fun w c => w.postServant 0 c.2 .reconnect)
    { w with enablings := w.enablings.filter (!finished ·) }

/-- Carries out what a servant asks for. -/
def effect (s : ServantId) (v : Backend.Servant) (w : World) : Backend.Effect → World
  | .dial l => w.dial s v l
  | .send l _ bytes =>
    match w.hostOf? s with
    | some h => w.post 0 (.arrive h ⟨s, l⟩ bytes)
    | none => w
  | .drop l =>
    match w.hostOf? s with
    | some h => w.post 0 (.hangUp h ⟨s, l⟩)
    | none => w
  | .wake t => w.postServant 0 s (.wake t)
  | .alarm t ms => w.postServant ms s (.alarm t)
  | .answer id result => { w with answers := (id, result) :: w.answers }.pokeClients
  | .started call failure => { w with starts := (call, failure) :: w.starts }.finishEnabling

/-- An event reaches a servant. -/
def stepServant (w : World) (s : ServantId) (e : Backend.Event) : World :=
  match w.servant? s with
  | none => w
  | some v =>
    let (v, effects) := v.step e
    let servants := w.proxy.servants.setIfInBounds s v
    effects.foldl (effect s v) { w with proxy := { w.proxy with servants } }

/-! ## Requests -/

/-- Puts a new state of the proxy in place. The timers of groups that were just ejected are set. -/
def withProxy (w : World) (p : Proxy) : World :=
  let before := w.proxy.monitor
  let ejected := (List.range p.table.shards.length).filter fun g =>
    p.monitor.isEjected g && !before.isEjected g
  ejected.foldl (fun w g => w.post p.monitor.options.retryMs (.health g)) { w with proxy := p }

/-- Hands a request to a servant. -/
def execute (w : World) (s : ServantId) (request : Bytes) : RequestId × World :=
  let id := w.nextRequest
  (id, { w with nextRequest := id + 1 }.postServant 0 s (.execute ⟨id, request⟩))

/-- Hands the calls of a request to their servants. -/
def send (w : World) : List Proxy.Call → List (Option RequestId) × World
  | [] => ([], w)
  | .refused :: rest =>
    let (ids, w) := w.send rest
    (none :: ids, w)
  | .send s request :: rest =>
    let (id, w) := w.execute s request
    let (ids, w) := w.send rest
    (some id :: ids, w)

def answer? (w : World) (id : RequestId) : Option (Except Failure Bytes) := w.answers.lookup id

/-- The replies to calls, once all of them are in. -/
def replies? (w : World) (ids : List (Option RequestId)) : Option (List Bytes) :=
  ids.mapM fun
    | none => some Wire.Reply.requestError
    | some id => (w.answer? id).map Proxy.replyOf

/-- Begins to serve a request: its reply, or the calls to await. -/
def begin (w : World) (m : Message) (authenticated : Bool) :
    (Bytes ⊕ Proxy.Merge × List (Option RequestId)) × Bool × World :=
  let (begun, authenticated, p) := w.proxy.begin m authenticated
  let w := w.withProxy p
  match begun with
  | .answered reply => (.inl reply, authenticated, w)
  | .forwarded merge calls =>
    let (ids, w) := w.send calls
    (.inr (merge, ids), authenticated, w)

/-! ## Clients -/

def client? (w : World) (name : String) : Option Client := w.clients.lookup name

def setClient (w : World) (name : String) (c : Client) : World :=
  { w with clients := w.clients.map fun e => if e.1 == name then (name, c) else e }

/-- One move of a session: it reads, answers a request or goes on to await replies. The flag says
whether it can move again. -/
def moveSession (w : World) (name : String) (c : Client) : Bool × World :=
  match c.phase with
  | .over => (false, w)
  | .awaiting merge ids =>
    match w.replies? ids with
    | none => (false, w)
    | some replies =>
      let outgoing := c.outgoing ++ merge.reply replies
      (true, w.setClient name { c with phase := .reading, outgoing })
  | .reading =>
    match c.session.next with
    | .needMore =>
      let (read, c) := c.flush.read
      (read, w.setClient name c)
    | .malformed =>
      let outgoing := c.outgoing ++ Wire.Reply.protoError
      (false, w.setClient name { c with outgoing }.flush.finish)
    | .unsupported session =>
      let outgoing := c.outgoing ++ Wire.Reply.protoNotSupport
      (true, w.setClient name { c with session, outgoing })
    | .request m session =>
      let (begun, authenticated, w) := w.begin m session.authenticated
      let c := { c with session := { session with authenticated } }
      match begun with
      | .inl reply => (true, w.setClient name { c with outgoing := c.outgoing ++ reply })
      | .inr (merge, ids) => (true, w.setClient name { c with phase := .awaiting merge ids })

/-- Moves a session as far as it can go. `fuel` bounds its moves. -/
def moveClient (w : World) (name : String) : Nat → World
  | 0 => w
  | fuel + 1 =>
    match w.client? name with
    | none => w
    | some c =>
      let (again, w) := w.moveSession name c
      if again then w.moveClient name fuel else w

/-- Every move but the last takes a byte or ends a wait. -/
def movesOf (c : Client) : Nat := 4 * (c.inbound.length + c.session.incoming.length) + 4

/-! ## What is due -/

def happen (w : World) : Happening → World
  | .servant s e => w.stepServant s e
  | .arrive host key bytes =>
    match w.hosts[host]? with
    | none => w
    | some h =>
      let (as, h) := h.receive key bytes
      (w.setHost host h).actions host key as
  | .resume host key m =>
    match w.hosts[host]? with
    | none => w
    | some h =>
      let (as, h) := h.resume key m
      (w.setHost host h).actions host key as
  | .hangUp host key =>
    match w.hosts[host]? with
    | none => w
    | some h => w.setHost host (h.remove key)
  | .health g =>
    let (again, p) := w.proxy.fireHealth g
    let w := { w with proxy := p }
    match again with
    | some ms => w.post ms (.health g)
    | none => w
  | .client name =>
    match w.client? name with
    | none => w
    | some c => w.moveClient name (movesOf c)

/-- Lets one thing after another happen until `done` holds, nothing more is due by the horizon, or
the fuel is spent. -/
def run (done : World → Bool) (horizon : Option Nat) (w : World) : Nat → World
  | 0 => w
  | fuel + 1 =>
    if done w then w
    else match w.agenda with
      | [] => w
      | (time, h) :: rest =>
        if horizon.any (· < time) then w
        else ({ w with agenda := rest, clock := max w.clock time }.happen h).run done horizon fuel

/-- More things than any scenario holds. -/
def plenty : Nat := 1000000

/-- Lets happen what is due by now. -/
def settle (w : World) : World := w.run (fun _ => false) (some w.clock) plenty

/-- Lets time pass. What is due just when it ends begins, and is under way then. -/
def advance (w : World) (ms : Nat) : World :=
  let horizon := w.clock + ms
  let reached (w : World) : Bool := w.agenda.head?.all (horizon ≤ ·.1)
  let w := { w.run reached none plenty with clock := horizon }
  let (due, later) := w.agenda.span (·.1 ≤ horizon)
  due.foldl (fun w entry => w.happen entry.2) { w with agenda := later }

/-- Goes on until some condition holds. -/
def await (w : World) (done : World → Bool) : World := w.run done none plenty

end World

end ShardProxy.Sim
