import ShardProxy.Failure
import ShardProxy.Routing.Table

/-!
# Configurations

What an operator configures: the server, the routing discipline, the health of groups, logging,
the shard groups with their hosts, and explicit mappings of slots and keys. Also the mapping state
that the proxy writes out when an operator changes mappings at run time.
-/

namespace ShardProxy

namespace Config

structure Server where
  listenAddr : String
  workerThreads : Option Nat := none
  maxConnections : Nat := 10000
  password : Option String := none
  /-- The deadline of one exchange with a backend; none if it is not given. -/
  backendTimeoutMs : Option Nat := none
  connectTimeoutMs : Nat := 1000
  stateFile : Option String := none
  deriving DecidableEq, Repr

structure RoutingOptions where
  mode : Routing.Mode := .direct
  /-- The number of slots in direct mode. -/
  slotCount : Nat := 128
  hash : String := "bytes"
  deriving DecidableEq, Repr

structure Host where
  name : String
  addr : String
  master : Bool := true
  poolSize : Nat := 50
  password : Option String := none
  deriving DecidableEq, Repr

structure Group where
  name : String
  policy : String := "master_only"
  /-- The first and the last slot owned in direct mode. -/
  hashMin : Option Nat := none
  hashMax : Option Nat := none
  /-- The share of ring points in ring mode. -/
  weight : UInt32 := 1
  hosts : List Host
  deriving DecidableEq, Repr

structure HashMapping where
  slot : Nat
  group : String
  deriving DecidableEq, Repr

structure KeyMapping where
  key : String
  group : String
  deriving DecidableEq, Repr

structure GroupOption where
  /-- Seconds between attempts to reconnect. -/
  backendRetryInterval : Nat := 1
  backendRetryLimit : Nat := 100
  /-- Seconds until an ejected group is looked at again. -/
  groupRetryTime : Nat := 30
  autoEjectGroup : Bool := false
  ejectAfterRestore : Bool := false
  deriving DecidableEq, Repr

structure Logging where
  level : String
  format : String
  stdout : Bool
  file : Option String := none
  deriving DecidableEq, Repr

end Config

open Config in
structure Config where
  server : Server
  routing : RoutingOptions := {}
  groupOption : GroupOption := {}
  logging : Logging
  groups : List Group := []
  hashMappings : List HashMapping := []
  keyMappings : List KeyMapping := []
  deriving DecidableEq, Repr

namespace Config

/-- The owners of slots and the key overrides at one moment, as an operator would configure them. -/
structure MappingState where
  hashMappings : List HashMapping := []
  keyMappings : List KeyMapping := []
  deriving DecidableEq, Repr

/-- The largest slot table in direct mode. -/
def maxSlotCount : Nat := 1024

def defaults : Config where
  server := { listenAddr := "0.0.0.0:8221" }
  logging := { level := "info", format := "text", stdout := true }
  groups :=
    [{ name := "group0", hashMin := some 0, hashMax := some 127,
       hosts := [{ name := "redis0", addr := "127.0.0.1:6379" }] }]

/-- The first group of a name. -/
def groupIndex? (c : Config) (name : String) : Option Nat := c.groups.findIdx? (·.name == name)

end Config

end ShardProxy
