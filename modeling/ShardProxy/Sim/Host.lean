import ShardProxy.Backend.Link
import ShardProxy.Command.Table

/-!
# Scripted hosts

A small key-value store that stands in for a backend. It answers each request that comes in on a
connection, in order. By the key of a request it can be told to close the connection, to fall
silent on it, to wait before it answers, or to answer with given bytes.
-/

namespace ShardProxy.Sim

open Wire (Message)

/-- A connection to a host: the link of a servant. -/
structure LinkKey where
  servant : Nat
  link : Backend.LinkId
  deriving DecidableEq, Repr

/-- A connection as its host sees it. -/
structure Peer where
  key : LinkKey
  authenticated : Bool := false
  received : Bytes := []
  /-- It has fallen silent. -/
  silent : Bool := false
  /-- A request on it waits. -/
  paused : Bool := false
  deriving DecidableEq, Repr

structure Host where
  address : String
  name : Bytes := []
  isUp : Bool := true
  password : Option Bytes := none
  store : List (Bytes × Bytes) := []
  replies : List (Bytes × Bytes) := []
  close : List Bytes := []
  hang : List Bytes := []
  slow : List Bytes := []
  /-- The AUTH requests, counted from one, that fail. -/
  authFail : List Nat := []
  /-- Connections are reset when the host is killed. -/
  resets : Bool := false
  authCount : Nat := 0
  peers : List Peer := []
  /-- The connection that was accepted last. -/
  newest : Option LinkKey := none
  deriving Repr

/-- What a host does with a connection. -/
inductive Action where
  | send (bytes : Bytes)
  | close
  /-- Go on with a request after a pause. -/
  | pause (m : Message)

namespace Host

/-- The pause before a slow answer, in milliseconds. -/
def pauseMs : Nat := 10

def accept (h : Host) (key : LinkKey) : Host :=
  { h with peers := h.peers ++ [{ key }], newest := some key }

def remove (h : Host) (key : LinkKey) : Host := { h with peers := h.peers.filter (·.key != key) }

def peer? (h : Host) (key : LinkKey) : Option Peer := h.peers.find? (·.key == key)

def setPeer (h : Host) (p : Peer) : Host :=
  { h with peers := h.peers.map fun q => if q.key == p.key then p else q }

def isCommand (m : Message) (name : String) : Bool :=
  (m.token? 0).any fun t => t.map Command.upper == Text.utf8 name

def put (key value : Bytes) (store : List (Bytes × Bytes)) : List (Bytes × Bytes) :=
  (key, value) :: store.filter (·.1 != key)

/-- Name and tokens of a request. -/
def echo (h : Host) (m : Message) : Bytes := [124].intercalate (h.name :: m.tokens)

/-- The answer to a request once it is served, and whether the connection is authenticated. -/
def answer (h : Host) (authenticated : Bool) (m : Message) : Bytes × Bool × Host :=
  let key := (m.token? 1).getD []
  let admitted := authenticated || h.password.isNone
  let reply (b : Bytes) : Bytes × Bool × Host := (b, authenticated, h)
  if isCommand m "AUTH" then
    let n := h.authCount + 1
    let h := { h with authCount := n }
    if h.password.isSome && m.token? 1 == h.password && !h.authFail.contains n then
      (Wire.Reply.ok, true, h)
    else (Wire.Reply.authInvalid, false, h)
  else if !admitted then reply Wire.Reply.noAuth
  else match (m.token? 1).bind (fun k => h.replies.lookup k) with
    | some raw => reply raw
    | none =>
      if isCommand m "PING" then reply Wire.Reply.pong
      else if isCommand m "GET" then reply (Wire.Value.bulk (h.store.lookup key)).encode
      else if isCommand m "SET" then
        (Wire.Reply.ok, authenticated, { h with store := put key ((m.token? 2).getD []) h.store })
      else if isCommand m "DEL" then
        let found := (h.store.lookup key).isSome
        (Wire.writeInteger (if found then 1 else 0), authenticated,
          { h with store := h.store.filter (·.1 != key) })
      else if isCommand m "DUMP" then reply (Wire.writeBulk m.raw)
      else reply (Wire.writeBulk (h.echo m))

/-- Serves one request. -/
def serve (h : Host) (p : Peer) (m : Message) : Action × Host :=
  let (bytes, authenticated, h) := h.answer p.authenticated m
  (.send bytes, h.setPeer { p with authenticated, paused := false })

/-- The key of a request is in a list. -/
def names (keys : List Bytes) (m : Message) : Bool := (m.token? 1).any keys.contains

/-- Serves the complete requests of a connection, as far as it is not held up. -/
def serveAll (h : Host) (key : LinkKey) : Nat → List Action × Host
  | 0 => ([], h)
  | fuel + 1 =>
    match h.peer? key with
    | none => ([], h)
    | some p =>
      if p.silent || p.paused || p.received.isEmpty then ([], h)
      else match Message.read p.received with
        | .incomplete => ([], h)
        | .malformed _ => ([.close], h.remove key)
        | .done m rest =>
          let p := { p with received := rest }
          if (p.authenticated || h.password.isNone) && !isCommand m "AUTH" then
            if names h.close m then ([.close], h.remove key)
            else if names h.hang m then ([], h.setPeer { p with silent := true })
            else if names h.slow m then ([.pause m], h.setPeer { p with paused := true })
            else
              let (action, h) := h.serve p m
              let (actions, h) := h.serveAll key fuel
              (action :: actions, h)
          else
            let (action, h) := h.serve p m
            let (actions, h) := h.serveAll key fuel
            (action :: actions, h)

/-- Bytes come in on a connection. -/
def receive (h : Host) (key : LinkKey) (bytes : Bytes) : List Action × Host :=
  match h.peer? key with
  | none => ([], h)
  | some p =>
    let received := p.received ++ bytes
    (h.setPeer { p with received }).serveAll key (received.length + 1)

/-- A pause is over. The request is served even if its connection is gone. -/
def resume (h : Host) (key : LinkKey) (m : Message) : List Action × Host :=
  match h.peer? key with
  | none => ([], (h.answer true m).2.2)
  | some p =>
    let (action, h) := h.serve p m
    let (actions, h) := h.serveAll key (p.received.length + 1)
    (action :: actions, h)

/-- How a killed host ends its connections. -/
def ending (h : Host) : Backend.Ending :=
  if h.resets then .reset "Connection reset by peer (os error 104)" else .closed

/-- Refuses connections from now on and ends those there are. -/
def kill (h : Host) : List LinkKey × Host :=
  (h.peers.map (·.key), { h with isUp := false, peers := [] })

end Host

end ShardProxy.Sim
