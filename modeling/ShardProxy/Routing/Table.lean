import ShardProxy.Hash.Kind
import ShardProxy.Routing.Overrides
import ShardProxy.Routing.Ring

/-!
# The routing table

A key is routed to the group of its override, if it has one, and else to the owner of its slot.
In direct mode the slot is the key's hash modulo the number of slots; in ring mode it is the
first ring point at or after the hash.
-/

namespace ShardProxy.Routing

inductive Mode where
  | direct | ring
  deriving DecidableEq, Repr, Inhabited

structure Table where
  mode : Mode
  hash : Hash.Kind
  shards : List Shard
  slots : Slots
  overrides : Overrides
  deriving Repr

namespace Table

/-- Slot `i` is owned by group `assignments[i]`. -/
def direct (hash : Hash.Kind) (shards : List Shard) (assignments : List GroupId) : Table :=
  ⟨.direct, hash, shards, .direct shards.length assignments, .empty⟩

/-- A ring over all groups, if their points can be counted. -/
def ring (hash : Hash.Kind) (shards : List Shard) : Option Table :=
  (Ring.build shards).map fun slots => ⟨.ring, hash, shards, slots, .empty⟩

/-- The first group of a name. -/
def groupNamed? (t : Table) (name : Bytes) : Option GroupId :=
  t.shards.findIdx? fun s => Text.utf8 s.name == name

def groupName? (t : Table) (g : GroupId) : Option String := t.shards[g]?.map (·.name)

def slotCount (t : Table) : Nat := t.slots.size

/-- The hash that places a key on the ring: the empty key and every key of a single group lie at
the start. -/
def ringHash (t : Table) (key : Bytes) : UInt32 :=
  if key.isEmpty || t.shards.length == 1 then 0 else t.hash.hash key

/-- The slot that a key hashes to, whatever its override. -/
def slotIndex? (t : Table) (key : Bytes) : Option Nat :=
  if t.slots.isEmpty then none
  else match t.mode with
    | .direct => some ((t.hash.hash key).toNat % t.slots.size)
    | .ring => some (Ring.lookup t.slots (t.ringHash key))

def ownerAt? (t : Table) (i : Nat) : Option GroupId := t.slots[i]?.bind (·.owner)

/-- The group of a key, where the slot is looked up in one version of the table and its owner
read from a later one. -/
def resolveAcross (t later : Table) (key : Bytes) : Option GroupId :=
  match t.overrides.get? key with
  | some g => some g
  | none => (t.slotIndex? key).bind later.ownerAt?

/-- The group that a key is routed to. -/
def resolve (t : Table) (key : Bytes) : Option GroupId := t.resolveAcross t key

/-- Gives one slot to a group, if there is such a slot. -/
def setSlot (t : Table) (i : Nat) (g : GroupId) : Option Table :=
  if i < t.slots.size then some { t with slots := t.slots.assign [i] g } else none

def addOverride (t : Table) (key : Bytes) (g : GroupId) : Table :=
  { t with overrides := t.overrides.insert key g }

/-- Removes the override of a key, if it has one. -/
def removeOverride (t : Table) (key : Bytes) : Option Table :=
  if t.overrides.contains key then some { t with overrides := t.overrides.erase key } else none

def ownedBy (t : Table) (g : GroupId) : List Nat := t.slots.ownedBy g

/-- Takes every slot from a group and deals them out to `targets`. The answer names the slots
taken. -/
def eject (t : Table) (g : GroupId) (targets : List GroupId) : List Nat × Table :=
  let owned := t.ownedBy g
  (owned, if owned.isEmpty then t else { t with slots := t.slots.redistribute owned targets })

/-- Gives slots back to a group. -/
def restore (t : Table) (indices : List Nat) (g : GroupId) : Table :=
  { t with slots := t.slots.assign indices g }

/-- The owner of each slot, by name. -/
def slotOwners (t : Table) : List (Option String) :=
  t.slots.toList.map fun s => s.owner.bind t.groupName?

end Table

end ShardProxy.Routing
