import ShardProxy.Text.Bytes

/-!
# The command table

Every command that clients may send, with the way it is served and whether it changes data. A
name is looked up without regard to the case of ASCII letters.
-/

namespace ShardProxy.Command

/-- How a command is served. -/
inductive Kind where
  /-- Sent unchanged to the group of its first argument. -/
  | key
  | multiGet | multiSet | multiDel
  | ping | auth | showCommands
  | hashMapping | addKeyMapping | delKeyMapping | showMapping | poolInfo
  deriving DecidableEq, Repr, Inhabited

structure Spec where
  name : String
  kind : Kind
  mutating : Bool
  deriving DecidableEq, Repr, Inhabited

/-- The commands that the proxy answers about itself. -/
def Kind.isAdministrative : Kind → Bool
  | showCommands | hashMapping | addKeyMapping | delKeyMapping | showMapping | poolInfo => true
  | _ => false

def Spec.isBackendCommand (s : Spec) : Bool := !s.kind.isAdministrative

def special : List (String × Kind) :=
  [("AUTH", .auth), ("PING", .ping), ("MGET", .multiGet), ("MSET", .multiSet), ("DEL", .multiDel),
   ("SHOWCMD", .showCommands), ("HASHMAPPING", .hashMapping), ("ADDKEYMAPPING", .addKeyMapping),
   ("DELKEYMAPPING", .delKeyMapping), ("SHOWMAPPING", .showMapping), ("POOLINFO", .poolInfo)]

/-- The commands that name one key, as their first argument. -/
def keyed : List String :=
  ["APPEND", "BITCOUNT", "BITPOS", "DUMP", "DECR", "DECRBY", "EXPIREAT", "EXISTS", "EXPIRE", "GET",
   "GETBIT", "GETRANGE", "GETSET", "HSET", "HSETNX", "HMSET", "HGET", "HMGET", "HINCRBY",
   "HEXISTS", "HLEN", "HDEL", "HKEYS", "HVALS", "HGETALL", "HINCRBYFLOAT", "INCR", "INCRBY",
   "INCRBYFLOAT", "LPUSH", "LPUSHX", "LPOP", "LRANGE", "LREM", "LINDEX", "LINSERT", "LLEN", "LSET",
   "LTRIM", "PSETEX", "PERSIST", "PEXPIRE", "PEXPIREAT", "PTTL", "PFADD", "PFCOUNT", "PFMERGE",
   "RESTORE", "RPOP", "RPUSH", "RPUSHX", "SADD", "SMEMBERS", "SREM", "SPOP", "SCARD", "SISMEMBER",
   "SRANDMEMBER", "SETBIT", "SETRANGE", "STRLEN", "SET", "SETEX", "SETNX", "TTL", "TYPE", "ZADD",
   "ZRANGE", "ZREM", "ZINCRBY", "ZRANK", "ZREVRANK", "ZREVRANGE", "ZRANGEBYSCORE", "ZCOUNT",
   "ZCARD", "ZREMRANGEBYRANK", "ZREMRANGEBYSCORE"]

/-- The commands that count as writes, and so go to a master. -/
def mutating : List String :=
  ["APPEND", "BITPOS", "DUMP", "DEL", "DECR", "DECRBY", "EXPIREAT", "EXISTS", "EXPIRE", "GETSET",
   "HSET", "HSETNX", "HMSET", "HINCRBY", "HDEL", "HINCRBYFLOAT", "INCR", "INCRBY", "INCRBYFLOAT",
   "LPUSH", "LPUSHX", "LPOP", "LREM", "LINSERT", "LSET", "LTRIM", "MSET", "PSETEX", "PERSIST",
   "PEXPIRE", "PEXPIREAT", "PTTL", "PING", "RESTORE", "RPOP", "RPUSH", "RPUSHX", "SADD", "SREM",
   "SPOP", "SETBIT", "SETRANGE", "SET", "SETEX", "SETNX", "TTL", "ZADD", "ZREM", "ZINCRBY",
   "ZREMRANGEBYRANK", "ZREMRANGEBYSCORE"]

/-- Every command, in the order in which they are listed to clients. -/
def table : List Spec :=
  (special ++ keyed.map (·, Kind.key)).map fun (name, kind) => ⟨name, kind, mutating.contains name⟩

/-- The upper-case form of an ASCII letter; any other byte unchanged. -/
def upper (b : UInt8) : UInt8 := if 97 ≤ b ∧ b ≤ 122 then b - 32 else b

def lookup (name : Bytes) : Option Spec :=
  table.find? fun s => Text.utf8 s.name == name.map upper

end ShardProxy.Command
