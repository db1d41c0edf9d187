import ShardProxy.Routing.Slot

/-!
# Key overrides

Keys that are mapped to a group whatever slot they hash to. Entries are kept in ascending order
of their keys, one to a key.
-/

namespace ShardProxy.Routing

structure Overrides where
  entries : List (Bytes × GroupId)
  deriving DecidableEq, Repr

namespace Overrides

def empty : Overrides := ⟨[]⟩

def get? (o : Overrides) (key : Bytes) : Option GroupId := o.entries.lookup key

/-- Puts an entry in its place, over an older one for the same key. -/
def place (key : Bytes) (g : GroupId) : List (Bytes × GroupId) → List (Bytes × GroupId)
  | [] => [(key, g)]
  | e :: rest =>
    match compare key e.1 with
    | .lt => (key, g) :: e :: rest
    | .eq => (key, g) :: rest
    | .gt => e :: place key g rest

def insert (o : Overrides) (key : Bytes) (g : GroupId) : Overrides := ⟨place key g o.entries⟩

def erase (o : Overrides) (key : Bytes) : Overrides := ⟨o.entries.filter (·.1 != key)⟩

def contains (o : Overrides) (key : Bytes) : Bool := (o.get? key).isSome

end Overrides

end ShardProxy.Routing
