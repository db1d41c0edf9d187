import ShardProxy.Wire.Message
import ShardProxy.Wire.Reply

/-!
# Multi-key requests

A request for several keys is split into one request a key. The replies are kept by the position
of their key, so the merged reply does not depend on the order in which they come in.

* `split` — the requests of single keys, in order;
* `Aggregation` — the replies so far;
* `Aggregation.gather` — takes replies in as they come, until none is missing;
* `Aggregation.merge` — the reply to the client.
-/

namespace ShardProxy.Command

/-- How the replies of a multi-key request are merged. -/
inductive Multi where
  /-- An array of all replies. -/
  | get
  /-- OK only if every pair was stored. -/
  | set
  /-- The sum of the counts. -/
  | del
  deriving DecidableEq, Repr, Inhabited

namespace Multi

/-- The command that a single key is sent with. -/
def single : Multi → Bytes
  | get => Text.utf8 "GET"
  | set => Text.utf8 "SET"
  | del => Text.utf8 "DEL"

/-- Arguments to a key. -/
def stride : Multi → Nat
  | set => 2
  | _ => 1

/-- The number of keys that a request names. An unpaired last argument is none. -/
def keyCount (kind : Multi) (request : Wire.Message) : Nat := (request.tokenCount - 1) / kind.stride

end Multi

/-- The request of one key. -/
structure SubRequest where
  index : Nat
  key : Bytes
  request : Bytes
  deriving DecidableEq, Repr

/-- The request of key number `index`. A missing token counts as empty. -/
def subRequest (kind : Multi) (request : Wire.Message) (index : Nat) : SubRequest :=
  let first := 1 + index * kind.stride
  let argument (i : Nat) : Bytes := (request.token? (first + i)).getD []
  { index
    key := argument 0
    request := Wire.command (kind.single :: (List.range kind.stride).map argument) }

def split (kind : Multi) (request : Wire.Message) : List SubRequest :=
  (List.range (kind.keyCount request)).map (subRequest kind request)

/-- The replies to a multi-key request, by position, and how many positions have one. -/
structure Aggregation where
  kind : Multi
  replies : List (Option Bytes)
  completed : Nat := 0
  deriving DecidableEq, Repr

namespace Aggregation

def start (kind : Multi) (count : Nat) : Aggregation := ⟨kind, List.replicate count none, 0⟩

def target (a : Aggregation) : Nat := a.replies.length

def isComplete (a : Aggregation) : Bool := a.completed == a.target

/-- Records the first reply to a position. The answer says whether it was the last one missing. -/
def complete (a : Aggregation) (index : Nat) (reply : Bytes) : Bool × Aggregation :=
  match a.replies[index]? with
  | some none =>
    let next := { a with
      replies := a.replies.set index (some reply)
      completed := a.completed + 1 }
    (next.isComplete, next)
  | _ => (false, a)

/-- Records replies as they come in, each for a position, until none is missing. -/
def gather (a : Aggregation) : List (Nat × Bytes) → Aggregation
  | [] => a
  | (index, reply) :: rest =>
    let (last, a) := a.complete index reply
    if last then a else a.gather rest

/-- The first message of a reply, if there is one. -/
def message? (reply : Bytes) : Option Wire.Message :=
  match Wire.Message.read reply with
  | .done m _ => some m
  | _ => none

/-- The reply is OK. -/
def stored (reply : Bytes) : Bool := (message? reply).any (·.isOk)

/-- The integer of a reply; any other reply counts for zero. -/
def count (reply : Bytes) : Int64 := ((message? reply).bind (·.integer?)).getD 0

/-- The reply to the client. A position without reply counts as a request error; counts are added up
as words of 64 bits. -/
def merge (a : Aggregation) : Bytes :=
  let replies := a.replies.map (·.getD Wire.Reply.requestError)
  match a.kind with
  | .get => Wire.writeArrayHeader replies.length ++ replies.flatten
  | .set => (replies.find? (!stored ·)).getD Wire.Reply.ok
  | .del => Wire.writeInteger ((replies.map count).sum).toInt

end Aggregation

end ShardProxy.Command
