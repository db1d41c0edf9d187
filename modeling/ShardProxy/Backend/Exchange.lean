import ShardProxy.Failure
import ShardProxy.Net.Script
import ShardProxy.Net.Window
import ShardProxy.Wire.Message

/-!
# One request and its reply

An exchange gathers the bytes that a backend sends until they begin with a complete message. That
message is the reply, byte for byte; bytes after it that came in with it are dropped.
-/

namespace ShardProxy.Backend

/-- Where an exchange stands. -/
inductive Stage where
  | sending | awaitingReply | decoding | done | failed
  deriving DecidableEq, Repr

def Stage.label : Stage → String
  | sending => "Sending"
  | awaitingReply => "AwaitingReply"
  | decoding => "Decoding"
  | done => "Done"
  | failed => "Failed"

/-- The bytes of a reply that have come in. -/
structure Exchange where
  received : Bytes
  window : Net.Window
  deriving DecidableEq, Repr

namespace Exchange

/-- Every exchange starts by sending. -/
def startStage : Stage := .sending

/-- The memory that a reply is read into at first. -/
def windowSize : Nat := 4096

def start : Exchange := ⟨[], .ofSize windowSize⟩

/-- The most bytes that the next read takes. -/
def room (e : Exchange) : Nat := e.window.room e.received.length

/-- What a read leads to. -/
inductive Verdict where
  | waiting (e : Exchange)
  | reply (bytes : Bytes)
  | failed (why : Failure)
  deriving DecidableEq, Repr

/-- Takes in the bytes of one read. -/
def feed (e : Exchange) (bytes : Bytes) : Verdict :=
  let received := e.received ++ bytes
  match Wire.frameLength received with
  | .done n _ => .reply (received.take n)
  | .incomplete => .waiting ⟨received, e.window.makeRoom e.received.length⟩
  | .malformed why => .failed (.badReply why)

/-- Reads until the reply is complete. Each step takes an item of the script or a part of one. -/
def readReply (e : Exchange) (s : Net.Script) : Nat → Except Failure Bytes × Net.Script
  | 0 => (.error .closedByBackend, s)
  | fuel + 1 =>
    match s.read e.room with
    | (.ended, s) => (.error .closedByBackend, s)
    | (.failed text, s) => (.error (.network text), s)
    | (.bytes b, s) =>
      match e.feed b with
      | .reply bytes => (.ok bytes, s)
      | .failed why => (.error why, s)
      | .waiting e => readReply e s fuel

/-- The whole exchange on a scripted stream: the request is written before the first read. -/
def run (request : Bytes) (s : Net.Script) : Except Failure Bytes × Net.Script :=
  match s.write request with
  | (some text, s) => (.error (.network text), s)
  | (none, s) => readReply .start s s.readsLeft

end Exchange

end ShardProxy.Backend
