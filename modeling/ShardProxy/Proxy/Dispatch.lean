import ShardProxy.Command.Scatter
import ShardProxy.Proxy.Admin

/-!
# Dispatch

What one client request leads to. Some requests are answered at once; the others are forwarded to
servants, which are all picked, in the order of the keys, before any reply is awaited. Every
failure on the way becomes one fixed reply.

* `begin` — the gate of authentication, then the handler of the command;
* `Merge.reply` — the reply to the client, once all replies to what was forwarded are in.
-/

namespace ShardProxy.Proxy

open Wire (Message)

/-- One forwarded request: it fails at once, or a servant takes it. -/
inductive Call where
  | refused
  | send (servant : ServantId) (request : Bytes)
  deriving DecidableEq, Repr

/-- How the replies to forwarded requests make up the reply to the client. -/
inductive Merge where
  /-- The one reply is passed on as it is. -/
  | relay
  | scattered (kind : Command.Multi)
  deriving DecidableEq, Repr

inductive Begun where
  | answered (reply : Bytes)
  | forwarded (merge : Merge) (calls : List Call)
  deriving DecidableEq, Repr

/-- Picks the servant for one key. Where no servant is live the group may be ejected. -/
def forward (p : Proxy) (key request : Bytes) (mutating : Bool) : Call × Proxy :=
  match p.table.resolve key with
  | none => (.refused, p)
  | some g =>
    match p.select g mutating with
    | (none, p) => (.refused, (p.report g).2)
    | (some s, p) => (.send s request, p)

/-- A request that names one key. -/
def forwardKey (p : Proxy) (spec : Command.Spec) (request : Message) : Begun × Proxy :=
  match request.token? 1 with
  | none => (.answered Wire.Reply.wrongArity, p)
  | some key =>
    let (call, p) := p.forward key request.raw spec.mutating
    (.forwarded .relay [call], p)

/-- Forwards the requests of several keys. -/
def forwardAll (p : Proxy) (mutating : Bool) : List Command.SubRequest → List Call × Proxy
  | [] => ([], p)
  | sub :: rest =>
    let (call, p) := p.forward sub.key sub.request mutating
    let (calls, p) := p.forwardAll mutating rest
    (call :: calls, p)

/-- A request that names several keys. One with a single key is passed on unchanged. -/
def scatter (p : Proxy) (kind : Command.Multi) (spec : Command.Spec) (request : Message) :
    Begun × Proxy :=
  match kind.keyCount request with
  | 0 => (.answered Wire.Reply.wrongArity, p)
  | 1 => p.forwardKey spec request
  | _ =>
    let (calls, p) := p.forwardAll spec.mutating (Command.split kind request)
    (.forwarded (.scattered kind) calls, p)

def administer (p : Proxy) (o : Outcome) : Begun × Proxy := (.answered o.reply, p.afterAdmin o)

/-- A request whose command is known and permitted, and the client's flag after it. -/
def serve (p : Proxy) (spec : Command.Spec) (request : Message) (authenticated : Bool) :
    Begun × Bool × Proxy :=
  let keep (r : Begun × Proxy) : Begun × Bool × Proxy := (r.1, authenticated, r.2)
  match spec.kind with
  | .key => keep (p.forwardKey spec request)
  | .multiGet => keep (p.scatter .get spec request)
  | .multiSet => keep (p.scatter .set spec request)
  | .multiDel => keep (p.scatter .del spec request)
  | .ping => (.answered Wire.Reply.pong, authenticated, p)
  | .auth =>
    let (reply, authenticated) := auth p.password request authenticated
    (.answered reply, authenticated, p)
  | .showCommands => (.answered showCommands, authenticated, p)
  | .showMapping => (.answered (showMapping p.table), authenticated, p)
  | .poolInfo => (.answered p.poolInfo, authenticated, p)
  | .hashMapping => keep (p.administer (hashMapping p.table request))
  | .addKeyMapping => keep (p.administer (addKeyMapping p.table request))
  | .delKeyMapping => keep (p.administer (delKeyMapping p.table request))

/-- Begins to serve one request. A client that is not authenticated may only authenticate. -/
def begin (p : Proxy) (request : Message) (authenticated : Bool) : Begun × Bool × Proxy :=
  match (request.token? 0).bind Command.lookup with
  | none => (.answered Wire.Reply.protoNotSupport, authenticated, p)
  | some spec =>
    if p.requiresAuth && !authenticated && spec.kind != .auth then
      (.answered Wire.Reply.noAuth, authenticated, p)
    else p.serve spec request authenticated

/-- The reply that stands for the result of a call. -/
def replyOf : Except Failure Bytes → Bytes
  | .ok reply => reply
  | .error _ => Wire.Reply.requestError

/-- The reply to the client; `replies` are in the order of the calls. -/
def Merge.reply (m : Merge) (replies : List Bytes) : Bytes :=
  match m with
  | .relay => replies.headD Wire.Reply.requestError
  | .scattered kind =>
    let a := Command.Aggregation.start kind replies.length
    (a.gather (replies.zipIdx.map fun (r, i) => (i, r))).merge

end ShardProxy.Proxy
