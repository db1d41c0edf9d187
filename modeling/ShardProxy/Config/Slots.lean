import ShardProxy.Config.Basic

/-!
# Who owns which slot

In direct mode each slot lies in the range of one group, or is named by a mapping, which wins over
the range. No two ranges overlap, and no slot is left over.
-/

namespace ShardProxy.Config

/-- The owners of slots as far as they are known. -/
abbrev Owners := Array (Option Nat)

/-- The slots that a group claims, first and last. -/
def Group.range (count : Nat) (g : Group) : Except Failure (Option (Nat × Nat)) :=
  match g.hashMin, g.hashMax with
  | none, none => .ok none
  | some lo, some hi =>
    if hi < lo then .error (.invalid ("Group " ++ g.name ++ " has hash_min greater than hash_max"))
    else if count ≤ hi then
      .error (.invalid ("Group " ++ g.name ++ " hash range exceeds slot_count " ++ toString count))
    else .ok (some (lo, hi))
  | _, _ => .error (.invalid ("Group " ++ g.name ++ " must set both hash_min and hash_max"))

def groupName (c : Config) (index : Nat) : String := (c.groups[index]?.map (·.name)).getD ""

/-- Claims a slot that nobody owns yet. -/
def claim (c : Config) (index : Nat) (owners : Owners) (slot : Nat) : Except Failure Owners :=
  match owners[slot]? with
  | some (some other) =>
    .error (.invalid ("Slot " ++ toString slot ++ " is claimed by both " ++ c.groupName other
      ++ " and " ++ c.groupName index))
  | _ => .ok (owners.setIfInBounds slot (some index))

/-- Claims the range of a group. -/
def claimRange (c : Config) (owners : Owners) (g : Group × Nat) : Except Failure Owners := do
  match ← g.1.range c.routing.slotCount with
  | none => return owners
  | some (lo, hi) => (List.range' lo (hi + 1 - lo)).foldlM (c.claim g.2) owners

/-- Puts a mapping over what the ranges say. -/
def applyMapping (c : Config) (owners : Owners) (m : HashMapping) : Except Failure Owners :=
  match c.groupIndex? m.group with
  | none => .error (.invalid ("Hash mapping references unknown group: " ++ m.group))
  | some index =>
    if c.routing.slotCount ≤ m.slot then
      .error (.invalid ("Hash mapping slot " ++ toString m.slot ++ " out of range"))
    else .ok (owners.setIfInBounds m.slot (some index))

/-- The index of the group that owns each slot. -/
def slotAssignments (c : Config) : Except Failure (List Nat) := do
  let owners : Owners := Array.replicate c.routing.slotCount none
  let owners ← c.groups.zipIdx.foldlM c.claimRange owners
  let owners ← c.hashMappings.foldlM c.applyMapping owners
  owners.toList.zipIdx.mapM fun
    | (some index, _) => .ok index
    | (none, slot) =>
      .error (.invalid ("Slot " ++ toString slot ++ " is not assigned to any group"))

end ShardProxy.Config
