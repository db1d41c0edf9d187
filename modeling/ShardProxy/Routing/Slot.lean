import ShardProxy.Text.Bytes

/-!
# Slots

A routing table is an array of slots, each owned by a shard group or by none. Groups are named
by their position in the list of groups.
-/

namespace ShardProxy

/-- The position of a shard group among all groups. -/
abbrev GroupId := Nat

namespace Routing

/-- One entry of a routing table. `position` places it on the ring. -/
structure Slot where
  owner : Option GroupId
  position : UInt32
  deriving DecidableEq, Repr

abbrev Slots := Array Slot

namespace Slots

/-- Slot `i` belongs to group `assignments[i]`, if there is such a group. -/
def direct (groupCount : Nat) (assignments : List GroupId) : Slots :=
  (assignments.mapIdx fun i g => ⟨if g < groupCount then some g else none, i.toUInt32⟩).toArray

/-- The indices of the slots that a group owns, ascending. -/
def ownedBy (slots : Slots) (g : GroupId) : List Nat :=
  (List.range slots.size).filter fun i => (slots[i]?.bind (·.owner)) == some g

def setOwner (slots : Slots) (i : Nat) (owner : Option GroupId) : Slots :=
  slots.modify i fun s => { s with owner }

/-- Gives every named slot to one group. -/
def assign (slots : Slots) (indices : List Nat) (g : GroupId) : Slots :=
  indices.foldl (fun s i => setOwner s i (some g)) slots

/-- Deals the named slots out to `targets` in turn. With no targets they are left unowned. -/
def redistribute (slots : Slots) (indices : List Nat) (targets : List GroupId) : Slots :=
  indices.zipIdx.foldl (fun s (i, n) => setOwner s i targets[n % targets.length]?) slots

end Slots

end Routing

end ShardProxy
