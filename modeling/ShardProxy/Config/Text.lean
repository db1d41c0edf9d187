import ShardProxy.Config.Basic
import ShardProxy.Toml.Document
import ShardProxy.Toml.Writer

/-!
# Configurations as text

A configuration is a TOML document. Fields that are missing have their defaults, and unknown ones
are passed over.

* `Config.parse`, `MappingState.parse` — from text;
* `Config.write`, `MappingState.write` — to text, without the options that are absent.
-/

namespace ShardProxy.Config

open Toml (Value Section)

/-! ## Reading -/

/-- The fields of a record. They are found by name in a table and by position in an array; a date
has none of them. -/
inductive Source where
  | named (entries : List (String × Value))
  | placed (items : List Value)

def Source.of? : Value → Option Source
  | .table es => some (.named es)
  | .array vs => some (.placed vs)
  | .date => some (.named [])
  | _ => none

def Source.find? (s : Source) (index : Nat) (name : String) : Option Value :=
  match s with
  | .named es => es.lookup name
  | .placed vs => vs[index]?

/-- A field that must be there. -/
def Source.required {α : Type} (s : Source) (index : Nat) (name : String)
    (read : Value → Option α) : Option α := (s.find? index name).bind read

/-- A field with a default. -/
def Source.optional {α : Type} (s : Source) (index : Nat) (name : String) (default : α)
    (read : Value → Option α) : Option α :=
  match s.find? index name with
  | none => some default
  | some v => read v

def readText : Value → Option String
  | .string s => some s
  | _ => none

def readBool : Value → Option Bool
  | .boolean b => some b
  | _ => none

/-- A number that is not negative. -/
def readNat : Value → Option Nat
  | .integer n => if n < 0 then none else some n.toNat
  | _ => none

/-- A number of 32 bits. -/
def readWord (v : Value) : Option Nat := (readNat v).filter (· < UInt32.size)

def readSome {α : Type} (read : Value → Option α) (v : Value) : Option (Option α) :=
  (read v).map some

def readList {α : Type} (read : Value → Option α) : Value → Option (List α)
  | .array vs => vs.mapM read
  | _ => none

def readRecord {α : Type} (read : Source → Option α) (v : Value) : Option α :=
  (Source.of? v).bind read

def modeNamed? : String → Option Routing.Mode
  | "direct" => some .direct
  | "ring" => some .ring
  | _ => none

/-- A mode is its name, or a table with the name as its only key and nothing in it. -/
def readMode : Value → Option Routing.Mode
  | .string s => modeNamed? s
  | .table [(name, .table [])] => modeNamed? name
  | .table [(name, .array [])] => modeNamed? name
  | _ => none

def readServer (s : Source) : Option Server := do
  return {
    listenAddr := ← s.required 0 "listen_addr" readText
    workerThreads := ← s.optional 1 "worker_threads" none (readSome readNat)
    maxConnections := ← s.optional 2 "max_connections" 10000 readNat
    password := ← s.optional 3 "password" none (readSome readText)
    backendTimeoutMs := ← s.optional 4 "backend_timeout_ms" none (readSome readNat)
    connectTimeoutMs := ← s.optional 5 "connect_timeout_ms" 1000 readNat
    stateFile := ← s.optional 6 "state_file" none (readSome readText) }

def readRouting (s : Source) : Option RoutingOptions := do
  return {
    mode := ← s.optional 0 "mode" .direct readMode
    slotCount := ← s.optional 1 "slot_count" 128 readNat
    hash := ← s.optional 2 "hash" "bytes" readText }

def readGroupOption (s : Source) : Option GroupOption := do
  return {
    backendRetryInterval := ← s.optional 0 "backend_retry_interval" 1 readNat
    backendRetryLimit := ← s.optional 1 "backend_retry_limit" 100 readWord
    groupRetryTime := ← s.optional 2 "group_retry_time" 30 readNat
    autoEjectGroup := ← s.optional 3 "auto_eject_group" false readBool
    ejectAfterRestore := ← s.optional 4 "eject_after_restore" false readBool }

def readLogging (s : Source) : Option Logging := do
  return {
    level := ← s.required 0 "level" readText
    format := ← s.required 1 "format" readText
    stdout := ← s.required 2 "stdout" readBool
    file := ← s.optional 3 "file" none (readSome readText) }

def readHost (s : Source) : Option Host := do
  return {
    name := ← s.required 0 "name" readText
    addr := ← s.required 1 "addr" readText
    master := ← s.optional 2 "master" true readBool
    poolSize := ← s.optional 3 "pool_size" 50 readNat
    password := ← s.optional 4 "password" none (readSome readText) }

def readGroup (s : Source) : Option Group := do
  return {
    name := ← s.required 0 "name" readText
    policy := ← s.optional 1 "policy" "master_only" readText
    hashMin := ← s.optional 2 "hash_min" none (readSome readNat)
    hashMax := ← s.optional 3 "hash_max" none (readSome readNat)
    weight := (← s.optional 4 "weight" 1 readWord).toUInt32
    hosts := ← s.required 5 "hosts" (readList (readRecord readHost)) }

def readHashMapping (s : Source) : Option HashMapping := do
  return { slot := ← s.required 0 "slot" readNat, group := ← s.required 1 "group" readText }

def readKeyMapping (s : Source) : Option KeyMapping := do
  return { key := ← s.required 0 "key" readText, group := ← s.required 1 "group" readText }

def readConfig (s : Source) : Option Config := do
  return {
    server := ← s.required 0 "server" (readRecord readServer)
    routing := ← s.optional 1 "routing" {} (readRecord readRouting)
    groupOption := ← s.optional 2 "group_option" {} (readRecord readGroupOption)
    logging := ← s.required 3 "logging" (readRecord readLogging)
    groups := ← s.optional 4 "groups" [] (readList (readRecord readGroup))
    hashMappings := ← s.optional 5 "hash_mappings" [] (readList (readRecord readHashMapping))
    keyMappings := ← s.optional 6 "key_mappings" [] (readList (readRecord readKeyMapping)) }

def readMappingState (s : Source) : Option MappingState := do
  return {
    hashMappings := ← s.optional 0 "hash_mappings" [] (readList (readRecord readHashMapping))
    keyMappings := ← s.optional 1 "key_mappings" [] (readList (readRecord readKeyMapping)) }

/-- A record that a whole text holds. -/
def parseWith {α : Type} (read : Source → Option α) (text : String) : Except Failure α :=
  match (Toml.parse? text).bind fun es => read (.named es) with
  | some a => .ok a
  | none => .error (.parse "")

def parse (text : String) : Except Failure Config := parseWith readConfig text

def MappingState.parse (text : String) : Except Failure MappingState :=
  parseWith readMappingState text

/-- The text of a file that was read, or could not be for a reason that the system gives. -/
def decode : Except String Bytes → Except Failure String
  | .error reason => .error (.io reason)
  | .ok bytes =>
    match Text.decode? bytes with
    | none => .error (.io "stream did not contain valid UTF-8")
    | some text => .ok text

/-! ## Writing -/

abbrev Field := String × Toml.Scalar.Plain

def text (name s : String) : List Field := [(name, .string s)]
def nat (name : String) (n : Nat) : List Field := [(name, .integer n)]
def bool (name : String) (b : Bool) : List Field := [(name, .boolean b)]

/-- A field that is written only when it is there. -/
def present {α : Type} (write : String → α → List Field) (name : String) (o : Option α) :
    List Field :=
  match o with
  | none => []
  | some a => write name a

def modeName : Routing.Mode → String
  | .direct => "direct"
  | .ring => "ring"

def Server.fields (s : Server) : List Field :=
  text "listen_addr" s.listenAddr ++ present nat "worker_threads" s.workerThreads
    ++ nat "max_connections" s.maxConnections ++ present text "password" s.password
    ++ present nat "backend_timeout_ms" s.backendTimeoutMs
    ++ nat "connect_timeout_ms" s.connectTimeoutMs ++ present text "state_file" s.stateFile

def RoutingOptions.fields (r : RoutingOptions) : List Field :=
  text "mode" (modeName r.mode) ++ nat "slot_count" r.slotCount ++ text "hash" r.hash

def GroupOption.fields (o : GroupOption) : List Field :=
  nat "backend_retry_interval" o.backendRetryInterval
    ++ nat "backend_retry_limit" o.backendRetryLimit ++ nat "group_retry_time" o.groupRetryTime
    ++ bool "auto_eject_group" o.autoEjectGroup ++ bool "eject_after_restore" o.ejectAfterRestore

def Logging.fields (l : Logging) : List Field :=
  text "level" l.level ++ text "format" l.format ++ bool "stdout" l.stdout
    ++ present text "file" l.file

def Host.fields (h : Host) : List Field :=
  text "name" h.name ++ text "addr" h.addr ++ bool "master" h.master ++ nat "pool_size" h.poolSize
    ++ present text "password" h.password

def Group.fields (g : Group) : List Field :=
  text "name" g.name ++ text "policy" g.policy ++ present nat "hash_min" g.hashMin
    ++ present nat "hash_max" g.hashMax ++ nat "weight" g.weight.toNat

/-- An array of tables. One without elements is a plain field. -/
def elements {α : Type} (path : String) (fields : α → List Field) (xs : List α) : List Section :=
  xs.map fun x => { path, isElement := true, fields := fields x }

def emptyField {α : Type} (name : String) (xs : List α) : List Field :=
  if xs.isEmpty then [(name, .emptyArray)] else []

def HashMapping.fields (m : HashMapping) : List Field := nat "slot" m.slot ++ text "group" m.group

def KeyMapping.fields (m : KeyMapping) : List Field := text "key" m.key ++ text "group" m.group

def MappingState.plain (s : MappingState) : List Field :=
  emptyField "hash_mappings" s.hashMappings ++ emptyField "key_mappings" s.keyMappings

def MappingState.sections (s : MappingState) : List Section :=
  elements "hash_mappings" HashMapping.fields s.hashMappings
    ++ elements "key_mappings" KeyMapping.fields s.keyMappings

def MappingState.write (s : MappingState) : String := Toml.write s.plain s.sections

def Group.sections (g : Group) : List Section :=
  { path := "groups", isElement := true, fields := g.fields ++ emptyField "hosts" g.hosts }
    :: elements "groups.hosts" Host.fields g.hosts

def write (c : Config) : String :=
  let mappings : MappingState := ⟨c.hashMappings, c.keyMappings⟩
  Toml.write (emptyField "groups" c.groups ++ mappings.plain)
    ([{ path := "server", fields := c.server.fields },
      { path := "routing", fields := c.routing.fields },
      { path := "group_option", fields := c.groupOption.fields },
      { path := "logging", fields := c.logging.fields }]
      ++ c.groups.flatMap (·.sections) ++ mappings.sections)

end ShardProxy.Config
