import ShardProxy.Hash.Crc16
import ShardProxy.Hash.Fnv
import ShardProxy.Hash.Md5

/-!
# Selectable key hashes
-/

namespace ShardProxy.Hash

/-- The functions that a configuration may choose to hash keys with. -/
inductive Kind where
  | bytes | fnv1 | fnv1a | fnv1Wide | fnv1aWide | hsieh | jenkins | md5 | crc16
  deriving DecidableEq, Repr, Inhabited

namespace Kind

def all : List Kind := [bytes, fnv1, fnv1a, fnv1Wide, fnv1aWide, hsieh, jenkins, md5, crc16]

def name : Kind → String
  | bytes => "bytes"
  | fnv1 => "fnv1_32"
  | fnv1a => "fnv1a_32"
  | fnv1Wide => "fnv1_64"
  | fnv1aWide => "fnv1a_64"
  | hsieh => "hsieh"
  | jenkins => "jenkins"
  | md5 => "md5"
  | crc16 => "crc16"

def ofName? (s : String) : Option Kind := all.find? (·.name == s)

def hash : Kind → Bytes → UInt32
  | bytes => Murmur.hash
  | fnv1 => Fnv.fnv1
  | fnv1a => Fnv.fnv1a
  | fnv1Wide => Fnv.fnv1Wide
  | fnv1aWide => Fnv.fnv1aWide
  | hsieh => Hsieh.hash
  | jenkins => Jenkins.hash
  | md5 => fun key => (Md5.digest key).a
  | crc16 => fun key => (Crc16.hash key).toUInt32

end Kind

end ShardProxy.Hash
