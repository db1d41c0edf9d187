import Mathlib.Logic.Function.Basic
import ShardProxy.Backend.Servant
import ShardProxy.Proofs.Wire.Grammar

/-!
# A servant and its surroundings

A servant asks its surroundings for something by its effects, and they move it by events. Of a host
only this is assumed: on each link it answers what it was sent in order, each write with one
complete frame. It may do so late or never, its bytes come in at any time and in any pieces, and a
link may end at any time. A write that gets through only in part is one that is never answered.
Nothing is assumed about time: every event that makes sense can be the next, so alarms, callers,
dials and hosts interleave in every way.

* `Surroundings` — the far side of each link, and what has been asked for so far;
* `System.Reachable` — the states of a servant in its surroundings.
-/

namespace ShardProxy.Backend

/-- What was written on a link, and for which request; for none, it presents the password. -/
structure Write where
  sender : Option RequestId
  bytes : Bytes
  deriving DecidableEq, Repr

/-- The far side of a link. -/
structure Peer where
  /-- What it was sent, the oldest first. -/
  asked : List Write := []
  /-- Its answers so far: the first to the first write, and so on. -/
  replied : List Bytes := []
  /-- What it sent and the servant has not received. -/
  inFlight : Bytes := []
  deriving DecidableEq, Repr

/-- Everything was answered, and every answer received. -/
def Peer.Settled (p : Peer) : Prop := p.inFlight = [] ∧ p.replied.length = p.asked.length

structure Surroundings where
  peer : LinkId → Peer := fun _ => {}
  /-- The dials that have neither succeeded nor failed. -/
  dials : List LinkId := []
  /-- The requests that the servant was handed. A request is known by its place. -/
  calls : List Bytes := []
  answers : List (RequestId × Except Failure Bytes) := []

namespace Surroundings

def setPeer (w : Surroundings) (l : LinkId) (p : Peer) : Surroundings :=
  { w with peer := Function.update w.peer l p }

/-- The servant writes on a link. -/
def write (w : Surroundings) (l : LinkId) (q : Write) : Surroundings :=
  w.setPeer l { w.peer l with asked := (w.peer l).asked ++ [q] }

/-- Does what the servant asks for. -/
def perform (w : Surroundings) : Effect → Surroundings
  | .dial l => { w with dials := w.dials ++ [l] }
  | .send l sender bytes => w.write l ⟨sender, bytes⟩
  | .answer id result => { w with answers := w.answers ++ [(id, result)] }
  | .drop _ | .wake _ | .alarm .. | .started .. => w

/-- The events that can reach the servant next: a request under a new number, the end of a dial
that is under way, bytes that a host has sent, and anything else at any time. -/
def Offers (w : Surroundings) : Event → Prop
  | .execute e => e.id = w.calls.length
  | .dialed l _ => l ∈ w.dials
  | .received l bytes => bytes <+: (w.peer l).inFlight
  | _ => True

instance (w : Surroundings) (ev : Event) : Decidable (w.Offers ev) :=
  match ev with
  | .execute e => inferInstanceAs (Decidable (e.id = w.calls.length))
  | .dialed l _ => inferInstanceAs (Decidable (l ∈ w.dials))
  | .received l bytes => inferInstanceAs (Decidable (bytes <+: (w.peer l).inFlight))
  | .wake _ | .ended .. | .alarm _ | .start _ | .reconnect | .stop => isTrue trivial

/-- What an event takes from the surroundings. -/
def deliver (w : Surroundings) : Event → Surroundings
  | .execute e => { w with calls := w.calls ++ [e.request] }
  | .dialed l _ => { w with dials := w.dials.filter (· != l) }
  | .received l bytes =>
    w.setPeer l { w.peer l with inFlight := (w.peer l).inFlight.drop bytes.length }
  | _ => w

/-- A host answers on a link. -/
def reply (w : Surroundings) (l : LinkId) (frame : Bytes) : Surroundings :=
  w.setPeer l
    { w.peer l with
      replied := (w.peer l).replied ++ [frame]
      inFlight := (w.peer l).inFlight ++ frame }

end Surroundings

structure System where
  servant : Servant
  around : Surroundings

namespace System

def initial (p : Profile) : System := ⟨.ofProfile p, {}⟩

/-- An event reaches the servant, and what it then asks for is done. -/
def react (sys : System) (ev : Event) : System :=
  let (servant, effects) := sys.servant.step ev
  ⟨servant, effects.foldl Surroundings.perform (sys.around.deliver ev)⟩

/-- A host answers on a link. -/
def reply (sys : System) (l : LinkId) (frame : Bytes) : System :=
  { sys with around := sys.around.reply l frame }

/-- The states that a servant comes to, beginning with nothing under way. -/
inductive Reachable (p : Profile) : System → Prop where
  | initial : Reachable p (initial p)
  | event {sys : System} {ev : Event} :
      Reachable p sys → sys.around.Offers ev → Reachable p (sys.react ev)
  /-- A host sends one complete frame for what it was sent and has not answered. -/
  | reply {sys : System} {l : LinkId} {frame : Bytes} :
      Reachable p sys → (sys.around.peer l).replied.length < (sys.around.peer l).asked.length →
        (∃ v, Wire.Derives frame v) → Reachable p (sys.reply l frame)

end System

end ShardProxy.Backend
