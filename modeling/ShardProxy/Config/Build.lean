import ShardProxy.Config.Check
import ShardProxy.Config.Text
import ShardProxy.Proxy.Assembly

/-!
# From a configuration to a proxy

* `load` — a checked configuration from the content of a file;
* `groupPlans`, `routingTable` — the groups and the routing table of a configuration;
* `proxy` — the proxy of a configuration, with no servant started;
* `example?` — configurations to start from.
-/

namespace ShardProxy.Config

/-- The configuration in the content of a file, if it passes all checks. -/
def load (content : Except String Bytes) : Except Failure Config := do
  let c ← parse (← decode content)
  c.check
  return c

def MappingState.load (content : Except String Bytes) : Except Failure MappingState := do
  MappingState.parse (← decode content)

/-- How a host is served. -/
def Host.profile (c : Config) (h : Host) : Except ShardProxy.Failure Backend.Profile :=
  match Net.Address.parse? h.addr with
  | none => .error .address
  | some address => .ok
      { name := h.name
        address := address.render
        master := h.master
        poolSize := h.poolSize
        password := h.password.map Text.utf8
        connectMs := c.server.connectTimeoutMs
        retryMs := c.groupOption.backendRetryInterval * 1000
        retryLimit := c.groupOption.backendRetryLimit
        timeoutMs := c.server.backendTimeoutMs }

def Group.shard (g : Group) : Routing.Shard := ⟨g.name, g.weight⟩

def Group.plan (c : Config) (g : Group) : Except ShardProxy.Failure GroupPlan :=
  match ShardProxy.Group.Policy.ofName? g.policy with
  | none => .error (.internal ("unknown policy " ++ g.policy))
  | some policy => do return { shard := g.shard, policy, hosts := ← g.hosts.mapM (Host.profile c) }

def groupPlans (c : Config) : Except ShardProxy.Failure (List GroupPlan) :=
  c.groups.mapM (Group.plan c)

/-- Adds the override of a key mapping. -/
def addKeyMapping (t : Routing.Table) (m : KeyMapping) : Except ShardProxy.Failure Routing.Table :=
  match t.groupNamed? (Text.utf8 m.group) with
  | none => .error (.routing ("unknown group " ++ m.group))
  | some g => .ok (t.addOverride (Text.utf8 m.key) g)

def routingTable (c : Config) : Except ShardProxy.Failure Routing.Table :=
  match Hash.Kind.ofName? c.routing.hash with
  | none => .error (.internal ("unknown hash " ++ c.routing.hash))
  | some hash => do
    let shards := c.groups.map (·.shard)
    let table ← match c.routing.mode with
      | .direct => (c.slotAssignments.map (Routing.Table.direct hash shards)).mapError .config
      | .ring =>
        match Routing.Table.ring hash shards with
        | some table => pure table
        | none => .error .overflow
    c.keyMappings.foldlM addKeyMapping table

def health (c : Config) : Health.Options where
  autoEject := c.groupOption.autoEjectGroup
  ejectAfterRestore := c.groupOption.ejectAfterRestore
  retryMs := c.groupOption.groupRetryTime * 1000

/-- The proxy of a configuration. -/
def proxy (c : Config) : Except ShardProxy.Failure Proxy := do
  c.check.mapError .config
  let plans ← c.groupPlans
  let table ← c.routingTable
  return { Proxy.assemble plans table with
    password := c.server.password.map Text.utf8
    stateFile := if c.server.stateFile.isSome then .writable none else .none
    monitor := { options := c.health } }

/-! ## Examples -/

def exampleGroup (name : String) (hosts : List Host) (range : Option (Nat × Nat)) : Group where
  name
  hashMin := range.map (·.1)
  hashMax := range.map (·.2)
  hosts

def exampleDirect : Config :=
  { defaults with groups :=
    [exampleGroup "group0"
      [{ name := "redis0", addr := "10.0.1.20:6379" },
       { name := "redis0-replica", addr := "10.0.1.21:6379", master := false }] (some (0, 63)),
     exampleGroup "group1"
      [{ name := "redis1", addr := "10.0.1.22:6379" },
       { name := "redis1-replica", addr := "10.0.1.23:6379", master := false }] (some (64, 127))] }

def exampleRing : Config :=
  { defaults with
    routing := { mode := .ring, hash := "md5" }
    groups :=
      [exampleGroup "group0" [{ name := "redis0", addr := "10.0.1.20:6379" }] none,
       exampleGroup "group1" [{ name := "redis1", addr := "10.0.1.21:6379" }] none,
       exampleGroup "group2" [{ name := "redis2", addr := "10.0.1.22:6379" }] none] }

/-- The example for a mode. -/
def example? (mode : String) : Except Failure Config :=
  match modeNamed? mode with
  | some .direct => .ok exampleDirect
  | some .ring => .ok exampleRing
  | none => .error (.invalid "Mode must be 'direct' or 'ring'")

end ShardProxy.Config
