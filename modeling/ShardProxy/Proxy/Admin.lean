import ShardProxy.Command.Table
import ShardProxy.Proxy.Basic
import ShardProxy.Text.Display
import ShardProxy.Wire.Reply

/-!
# Commands that the proxy answers itself

Replies are status text, laid out for operators at a terminal. Mapping commands change the routing
table or leave it as it is, and say which.
-/

namespace ShardProxy.Proxy

open Text (utf8)
open Wire (Message)

/-- The reply to AUTH, and whether the client is authenticated after it. -/
def auth (password : Option Bytes) (request : Message) (authenticated : Bool) : Bytes × Bool :=
  if request.tokenCount != 2 then (Wire.Reply.wrongArity, authenticated)
  else match password with
    | none => (Wire.Reply.authNotSet, authenticated)
    | some expected =>
      if request.token? 1 == some expected then (Wire.Reply.ok, true)
      else (Wire.Reply.authInvalid, authenticated)

/-- Every command, those of backends first. -/
def showCommands : Bytes :=
  let names (specs : List Command.Spec) : String := String.join (specs.map fun s => s.name ++ " ")
  utf8 <| "+ *** Support the command ***\n[Redis Command]\n"
    ++ names (Command.table.filter (·.isBackendCommand))
    ++ "\n\n[Proxy Command]\n"
    ++ names (Command.table.filter (!·.isBackendCommand))
    ++ "\n\r\n"

/-- The reply to a mapping command. It carries the new table if the table changed. -/
structure Outcome where
  reply : Bytes
  changed : Option Routing.Table

def Outcome.unchanged (reply : Bytes) : Outcome := ⟨reply, none⟩

def Outcome.accepted (t : Routing.Table) : Outcome := ⟨Wire.Reply.ok, some t⟩

/-- The group that a token names. -/
def groupToken? (t : Routing.Table) (request : Message) (i : Nat) : Option GroupId :=
  (request.token? i).bind t.groupNamed?

/-- The slot that a token names: a decimal number that is not negative. -/
def slotToken? (request : Message) (i : Nat) : Option Nat :=
  ((request.token? i).bind Wire.number?).bind fun n =>
    if n.toInt < 0 then none else some n.toInt.toNat

/-- Maps one slot to a group. -/
def hashMapping (t : Routing.Table) (request : Message) : Outcome :=
  if request.tokenCount != 3 then .unchanged Wire.Reply.hashMappingUsage
  else match groupToken? t request 2 with
    | none => .unchanged Wire.Reply.groupNotExists
    | some g =>
      match (slotToken? request 1).bind (t.setSlot · g) with
      | none => .unchanged Wire.Reply.invalidHashValue
      | some t => .accepted t

/-- Maps keys to a group. -/
def addKeyMapping (t : Routing.Table) (request : Message) : Outcome :=
  if request.tokenCount ≤ 2 then .unchanged Wire.Reply.addKeyMappingUsage
  else match groupToken? t request 1 with
    | none => .unchanged Wire.Reply.groupNotExists
    | some g => .accepted ((request.tokens.drop 2).foldl (·.addOverride · g) t)

/-- Takes the mappings of keys away. Keys without one are passed over. -/
def delKeyMapping (t : Routing.Table) (request : Message) : Outcome :=
  if request.tokenCount ≤ 1 then .unchanged Wire.Reply.delKeyMappingUsage
  else .accepted ((request.tokens.drop 1).foldl (fun t key => (t.removeOverride key).getD t) t)

def line (cells : List (Nat × String)) : String := Text.row cells ++ "\n"

/-- The owner of every slot, and the mapped keys of every group. -/
def showMapping (t : Routing.Table) : Bytes :=
  let slot (s : Option String × Nat) : String := line [(15, toString s.2), (15, s.1.getD "-")]
  let group (s : Routing.Shard × Nat) : String :=
    let keys := t.overrides.entries.filter (·.2 == s.2)
    Text.row [(4, toString s.2), (15, s.1.name)] ++ " "
      ++ String.join (keys.map fun e => Text.decodeLossy e.1 ++ " ") ++ "\n"
  utf8 <| "+\n[HASH MAPPING]\n"
    ++ line [(15, "HASH_VALUE"), (15, "GROUP_NAME")]
    ++ String.join (t.slotOwners.zipIdx.map slot)
    ++ "\n[KEY MAPPING]\n"
    ++ line [(4, "ID"), (15, "NAME"), (0, "KEYS")]
    ++ String.join (t.shards.zipIdx.map group)
    ++ "\n\r\n"

/-- The pool of every servant. -/
def poolInfo (p : Proxy) : Bytes :=
  let servant (group : String) (id : ServantId) : String :=
    match p.servants[id]? with
    | none => ""
    | some s =>
      line [(10, group), (20, s.profile.address), (8, toString s.stats.active),
        (10, toString s.stats.idle), (12, toString s.stats.capacity)]
  utf8 <| "+"
    ++ line [(10, "GROUP"), (20, "HOST"), (8, "ACTIVE"), (10, "UNACTIVE"), (12, "POOLSIZE")]
    ++ String.join ((p.table.shards.zip p.members).map fun (shard, m) =>
      String.join (m.all.map (servant shard.name)))
    ++ "\r\n"

/-- Slot owners and key overrides in the form of a configuration. Slots without an owner are left
out, and keys that are not text are written as the nearest text. -/
def mappingState (t : Routing.Table) : Config.MappingState where
  hashMappings := t.slotOwners.zipIdx.filterMap fun (owner, slot) =>
    owner.map fun group => ⟨slot, group⟩
  keyMappings := t.overrides.entries.map fun (key, g) =>
    ⟨Text.decodeLossy key, (t.groupName? g).getD ""⟩

/-- Writes the mapping state out, where that is possible. -/
def persist (t : Routing.Table) : StateFile → StateFile
  | .writable _ => .writable (some (mappingState t))
  | file => file

/-- Puts the outcome of a mapping command into effect. -/
def afterAdmin (p : Proxy) (o : Outcome) : Proxy :=
  match o.changed with
  | none => p
  | some table => { p with table, stateFile := persist table p.stateFile }

end ShardProxy.Proxy
