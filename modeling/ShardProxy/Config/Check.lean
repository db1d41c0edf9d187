import ShardProxy.Config.Slots
import ShardProxy.Group.Selection

/-!
# Checking a configuration

The first fault that is found is reported. Faults are looked for in the server, the routing
discipline, the groups with their hosts, the slots, the mappings, the group options and logging,
in this order.
-/

namespace ShardProxy.Config

def require (holds : Bool) (otherwise : String) : Except Failure Unit :=
  if holds then .ok () else .error (.invalid otherwise)

def isAddress (s : String) : Bool := (Net.Address.parse? s).isSome

def Server.check (s : Server) : Except Failure Unit := do
  require (isAddress s.listenAddr) ("Invalid listen address: " ++ s.listenAddr)
  require (s.workerThreads != some 0) "worker_threads must be greater than 0"
  require (s.maxConnections != 0) "max_connections must be greater than 0"

def RoutingOptions.check (r : RoutingOptions) : Except Failure Unit := do
  require (Hash.Kind.ofName? r.hash).isSome ("Unknown hash function: " ++ r.hash)
  require (r.mode != .direct || (r.slotCount != 0 && r.slotCount ≤ maxSlotCount))
    ("slot_count must be between 1 and " ++ toString maxSlotCount)

def Host.check (h : Host) : Except Failure Unit := do
  require (isAddress h.addr) ("Invalid host address: " ++ h.addr)
  require (h.poolSize != 0) ("Host " ++ h.name ++ " pool_size must be greater than 0")

/-- Checks a group; `names` are those of the groups before it. -/
def Group.check (mode : Routing.Mode) (names : List String) (g : Group) : Except Failure Unit := do
  require (g.name != "") "Group name cannot be empty"
  require (!names.contains g.name) ("Duplicate group name: " ++ g.name)
  require (ShardProxy.Group.Policy.ofName? g.policy).isSome
    ("Unknown policy " ++ g.policy ++ " for group " ++ g.name)
  require (!g.hosts.isEmpty) ("Group " ++ g.name ++ " has no hosts")
  require (mode != .ring || g.weight != 0) ("Group " ++ g.name ++ " weight must be greater than 0")
  g.hosts.forM Host.check

def checkGroups (mode : Routing.Mode) (names : List String) : List Group → Except Failure Unit
  | [] => .ok ()
  | g :: gs => do
    g.check mode names
    checkGroups mode (g.name :: names) gs

def KeyMapping.check (c : Config) (m : KeyMapping) : Except Failure Unit := do
  require (m.key != "") "Key mapping key cannot be empty"
  require (c.groupIndex? m.group).isSome ("Key mapping references unknown group: " ++ m.group)

def GroupOption.check (o : GroupOption) : Except Failure Unit := do
  require (o.backendRetryInterval != 0) "backend_retry_interval must be greater than 0"
  require (o.backendRetryLimit != 0) "backend_retry_limit must be greater than 0"
  require (!(o.autoEjectGroup && o.groupRetryTime == 0))
    "group_retry_time must be greater than 0 when auto_eject_group is set"

def Logging.check (l : Logging) : Except Failure Unit := do
  require (["error", "warn", "info", "debug", "trace"].contains l.level)
    ("Invalid log level: " ++ l.level)
  require (["json", "text"].contains l.format) ("Invalid log format: " ++ l.format)

def check (c : Config) : Except Failure Unit := do
  c.server.check
  c.routing.check
  require (!c.groups.isEmpty) "At least one group is required"
  checkGroups c.routing.mode [] c.groups
  if c.routing.mode = .direct then
    let _ ← c.slotAssignments
  c.keyMappings.forM (KeyMapping.check c)
  c.groupOption.check
  c.logging.check

end ShardProxy.Config
