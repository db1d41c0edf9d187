import ShardProxy.Net.Script
import ShardProxy.Net.Window
import ShardProxy.Wire.Message
import ShardProxy.Wire.Reply

/-!
# Client sessions

A session answers the complete requests that have come in, in order, and writes their replies
together before it reads again. Bytes that can never become a request are answered once, and then
the session is over.

* `Session.next` — the next thing to do with the bytes that have come in;
* `Session.drain` — all replies that are due, under any way to serve a request;
* `Session.run` — a whole session on a scripted stream.
-/

namespace ShardProxy

open Wire (Message)

structure Session where
  incoming : Bytes := []
  window : Net.Window
  authenticated : Bool
  deriving DecidableEq, Repr

namespace Session

/-- The memory that requests are read into at first. -/
def windowSize : Nat := 16 * 1024

def start (authenticated : Bool) : Session := { window := .ofSize windowSize, authenticated }

/-- The most bytes that the next read takes. -/
def room (s : Session) : Nat := s.window.room s.incoming.length

/-- Takes in the bytes of one read. -/
def feed (s : Session) (bytes : Bytes) : Session :=
  { s with incoming := s.incoming ++ bytes, window := s.window.makeRoom s.incoming.length }

inductive Next where
  | needMore
  /-- The bytes are no request: the session ends. -/
  | malformed
  /-- A message that is no request. -/
  | unsupported (rest : Session)
  | request (m : Message) (rest : Session)

/-- Splits the first message off. -/
def next (s : Session) : Next :=
  if s.incoming.isEmpty then .needMore
  else match Wire.frameLength s.incoming with
    | .incomplete => .needMore
    | .malformed _ => .malformed
    | .done n _ =>
      let rest := { s with incoming := s.incoming.drop n, window := s.window.consume n }
      match Message.read (s.incoming.take n) with
      | .done m _ =>
        if m.kind != .array || m.tokenCount == 0 then .unsupported rest else .request m rest
      | _ => .malformed

/-- The replies to all requests that have come in, and whether the session ends. `fuel` bounds
their number; each takes a byte at least. -/
def drainSteps {σ : Type} (dispatch : σ → Message → Bool → σ × Bytes × Bool) (world : σ)
    (s : Session) (out : Bytes) : Nat → σ × Session × Bytes × Bool
  | 0 => (world, s, out, false)
  | fuel + 1 =>
    match s.next with
    | .needMore => (world, s, out, false)
    | .malformed => (world, s, out ++ Wire.Reply.protoError, true)
    | .unsupported rest => drainSteps dispatch world rest (out ++ Wire.Reply.protoNotSupport) fuel
    | .request m rest =>
      let (world, reply, authenticated) := dispatch world m rest.authenticated
      drainSteps dispatch world { rest with authenticated } (out ++ reply) fuel

def drain {σ : Type} (dispatch : σ → Message → Bool → σ × Bytes × Bool) (world : σ) (s : Session) :
    σ × Session × Bytes × Bool :=
  drainSteps dispatch world s [] (s.incoming.length + 1)

/-- One round after another: drain, write, read. The result is what ended the session early. -/
def rounds {σ : Type} (dispatch : σ → Message → Bool → σ × Bytes × Bool) (world : σ) (s : Session)
    (script : Net.Script) : Nat → σ × Option String × Net.Script
  | 0 => (world, none, script)
  | fuel + 1 =>
    let (world, s, out, close) := s.drain dispatch world
    match script.write out with
    | (some text, script) => (world, some text, script)
    | (none, script) =>
      if close then (world, none, script)
      else match script.read s.room with
        | (.ended, script) => (world, none, script)
        | (.failed text, script) => (world, some text, script)
        | (.bytes b, script) => rounds dispatch world (s.feed b) script fuel

/-- Serves a scripted client until it leaves or sends what is no request. -/
def run {σ : Type} (dispatch : σ → Message → Bool → σ × Bytes × Bool) (world : σ) (s : Session)
    (script : Net.Script) : σ × Option String × Net.Script :=
  rounds dispatch world s script script.readsLeft

end Session

end ShardProxy
