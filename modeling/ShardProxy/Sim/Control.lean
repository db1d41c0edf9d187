import ShardProxy.Proxy.Assembly
import ShardProxy.Sim.World

/-!
# Acting on a world

What a caller can do: send requests and wait for their replies, start and stop servants, let hosts
fail and come back, come as a client, and let time pass. Each action ends when what it waits for
has happened, and then what is due by now happens too.
-/

namespace ShardProxy.Sim.World

open Wire (Message)
open Backend (RequestId)

/-! ## Requests -/

/-- Waits for the reply to a request that was begun. -/
def awaitReply (w : World) (begun : Bytes ⊕ Proxy.Merge × List (Option RequestId)) :
    Bytes × World :=
  match begun with
  | .inl reply => (reply, w)
  | .inr (merge, ids) =>
    let w := (w.await fun w => (w.replies? ids).isSome).settle
    (((w.replies? ids).map merge.reply).getD [], w)

/-- Sends a request and waits for its reply, as a client with this flag. -/
def request (w : World) (m : Message) (authenticated : Bool) : Bytes × Bool × World :=
  let (begun, authenticated, w) := w.begin m authenticated
  let (reply, w) := w.awaitReply begun
  (reply, authenticated, w.settle)

/-- Requests that are sent at once and whose replies are not awaited yet. -/
abbrev InFlight := List (Bytes ⊕ Proxy.Merge × List (Option RequestId))

/-- Sends requests at once. -/
def launch (w : World) (ms : List Message) : InFlight × World :=
  let (begun, w) := ms.foldl (fun (acc, w) m =>
    let (b, _, w) := w.begin m true
    (b :: acc, w)) (([] : InFlight), w)
  (begun.reverse, w)

/-- Waits for the replies to requests in flight. -/
def land (w : World) (flight : InFlight) : List Bytes × World :=
  let (replies, w) := flight.foldl (fun (acc, w) b =>
    let (r, w) := w.awaitReply b
    (r :: acc, w)) ([], w)
  (replies.reverse, w)

/-- Lets one servant forward a request. -/
def executeOn (w : World) (s : ServantId) (bytes : Bytes) : Option (Except Failure Bytes) × World :=
  let (id, w) := w.execute s bytes
  let w := (w.await fun w => (w.answer? id).isSome).settle
  (w.answer? id, w)

/-- Forwards a request to the group of a key. -/
def forward (w : World) (key bytes : Bytes) (mutating : Bool) : Bytes × World :=
  let (call, p) := w.proxy.forward key bytes mutating
  let (ids, w) := (w.withProxy p).send [call]
  w.awaitReply (.inr (.relay, ids))

/-- Serves a scripted client. -/
def session (w : World) (script : Net.Script) :
    Option String × Net.Script × World :=
  let dispatch (w : World) (m : Message) (authenticated : Bool) : World × Bytes × Bool :=
    let (reply, authenticated, w) := w.request m authenticated
    (w, reply, authenticated)
  let (w, failure, script) := (Session.start (!w.proxy.requiresAuth)).run dispatch w script
  (failure, script, w)

/-! ## Servants and groups -/

def postStart (w : World) (s : ServantId) : Nat × World :=
  (w.nextCall, { w with nextCall := w.nextCall + 1 }.postServant 0 s (.start w.nextCall))

/-- Starts a servant and waits until it is started or has failed to. -/
def start (w : World) (s : ServantId) : Option Failure × World :=
  let (call, w) := w.postStart s
  let w := (w.await fun w => (w.starts.lookup call).isSome).settle
  ((w.starts.lookup call).getD none, w)

/-- Stops servants, all of them before anything else happens. -/
def stopAll (w : World) (ss : List ServantId) : World :=
  (ss.foldl (fun w s => w.stepServant s .stop) w).settle

def stop (w : World) (s : ServantId) : World := w.stopAll [s]

/-- Begins to start every servant of a group that is not active. -/
def beginEnabling (w : World) (g : GroupId) : World :=
  let (calls, w) := ((w.proxy.membersOf g).filter (!w.proxy.isLive ·)).foldl (fun (calls, w) s =>
    let (call, w) := w.postStart s
    (calls ++ [(call, s)], w)) (([] : List (Nat × ServantId)), w)
  if calls.isEmpty then w else { w with enablings := w.enablings ++ [calls] }

/-- Starts the servants of groups, and waits until each is started or has failed to; the latter
keep trying. -/
def enable (w : World) (gs : List GroupId) : World :=
  ((gs.foldl beginEnabling w).await fun w => w.enablings.isEmpty).settle

/-- Stops every servant of a group. -/
def disable (w : World) (g : GroupId) : World := w.stopAll (w.proxy.membersOf g)

/-- A request found no live servant in a group. -/
def report (w : World) (g : GroupId) : Bool × World :=
  let (ejected, p) := w.proxy.report g
  (ejected, w.withProxy p)

/-- Cancels the health timers and stops every servant. -/
def shutdown (w : World) : World :=
  let w := { w with proxy := { w.proxy with monitor := w.proxy.monitor.shutdown } }
  w.stopAll ((List.range w.proxy.members.length).flatMap w.proxy.membersOf)

/-! ## Hosts -/

def kill (w : World) (host : Nat) : World :=
  match w.hosts[host]? with
  | none => w
  | some h =>
    let ending := h.ending
    let (keys, h) := h.kill
    let finish (w : World) (k : LinkKey) : World := w.postServant 0 k.servant (.ended k.link ending)
    (keys.foldl finish (w.setHost host h)).settle

def revive (w : World) (host : Nat) : World :=
  { w with hosts := w.hosts.modify host fun h => { h with isUp := true } }

/-- How long one waits for servants to come back, in milliseconds. -/
def patience : Nat := 5000

/-- Waits until the servants of a host are active again; the answer says whether they are. -/
def awaitServants (w : World) (host : Nat) : Bool × World :=
  let back (w : World) : Bool := (w.servantsOf host).all w.proxy.isLive
  let w := w.run back (some (w.clock + patience)) plenty
  (back w, w.settle)

/-- Sends unasked bytes on the connection that a host accepted last, if there is one. -/
def push (w : World) (host : Nat) (bytes : Bytes) : Option World :=
  ((w.hosts[host]?).bind (·.newest)).map fun key =>
    (w.postServant 0 key.servant (.received key.link bytes)).settle

/-! ## Clients -/

/-- Listens for clients. -/
def listen (w : World) (maxConnections : Nat) : World :=
  { w with maxConnections, accepting := true }

/-- A client connects. One too many is turned away at once. -/
def connect (w : World) (name : String) : Option World :=
  if !w.accepting || w.net == .isolated then none
  else
    let serving := w.clients.countP fun c => c.2.phase != .over
    let c : Client := { session := Session.start (!w.proxy.requiresAuth), phase := .reading }
    let c := if serving < w.maxConnections then c else c.finish
    some { w with clients := w.clients.filter (·.1 != name) ++ [(name, c)] }

def changeClient (w : World) (name : String) (f : Client → Client) : World :=
  match w.client? name with
  | none => w
  | some c => ((w.setClient name (f c)).post 0 (.client name)).settle

def clientSends (w : World) (name : String) (bytes : Bytes) : World :=
  w.changeClient name fun c => { c with inbound := c.inbound ++ bytes }

def clientEnds (w : World) (name : String) (ending : Backend.Ending) : World :=
  w.changeClient name fun c => { c with inboundEnd := some ending }

/-- A client reads, until it has so many bytes or no more will come; the flag says the latter. -/
def clientReads (w : World) (name : String) (n : Nat) : Option (Bytes × Bool) × World :=
  let ready (c : Client) : Bool := n ≤ c.outbound.length || c.outboundEnded
  let w := (w.await fun w => (w.client? name).any ready).settle
  match w.client? name with
  | none => (none, w)
  | some c =>
    let read := (c.outbound.take n, c.outbound.length < n && c.outboundEnded)
    (some read, w.setClient name { c with outbound := c.outbound.drop n })

/-- Accepts no more clients and shuts the proxy down. Sessions go on. -/
def stopServer (w : World) : World := { w with accepting := false }.shutdown

/-! ## Setting up -/

/-- A world in which the servants that `starts` names have been started, in the order of their
numbers. A failure is ignored. -/
def setUp (net : Network) (hosts : List Host) (proxy : Proxy) (starts : ServantId → Bool) : World :=
  let w : World := { net, hosts := hosts.toArray, proxy }
  ((List.range proxy.servants.size).filter starts).foldl (fun w s => (w.start s).2) w

end ShardProxy.Sim.World
