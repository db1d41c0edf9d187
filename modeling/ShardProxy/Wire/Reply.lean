import ShardProxy.Text.Bytes

/-!
# Fixed replies

Every failure that a client can observe is one of these byte strings; what went wrong at a
backend does not show.
-/

namespace ShardProxy.Wire.Reply

open Text

def protoError : Bytes := utf8 "-Proto error\r\n"
def protoNotSupport : Bytes := utf8 "-Proto not support\r\n"
def wrongArity : Bytes := utf8 "-Wrong number of arguments\r\n"
def requestError : Bytes := utf8 "-Request error\r\n"
def noAuth : Bytes := utf8 "-NOAUTH Authentication required.\r\n"
def ok : Bytes := utf8 "+OK\r\n"
def pong : Bytes := utf8 "+PONG\r\n"
def authNotSet : Bytes := utf8 "-ERR Client sent AUTH, but no password is set\r\n"
def authInvalid : Bytes := utf8 "-ERR invalid password\r\n"
def groupNotExists : Bytes := utf8 "-Group is not exists\r\n"
def invalidHashValue : Bytes := utf8 "-Invalid hash value\r\n"
def hashMappingUsage : Bytes := utf8 "+Usage:\nHASHMAPPING [hash value] [group name]\n\r\n"
def addKeyMappingUsage : Bytes := utf8 "+Usage:\nADDKEYMAPPING [group name] [key1] [key2]...\n\r\n"
def delKeyMappingUsage : Bytes := utf8 "+Usage:\nDELKEYMAPPING [key1] [key2]...\n\r\n"

/-- Every fixed reply. -/
def all : List Bytes :=
  [protoError, protoNotSupport, wrongArity, requestError, noAuth, ok, pong, authNotSet, authInvalid,
   groupNotExists, invalidHashValue, hashMappingUsage, addKeyMappingUsage, delKeyMappingUsage]

end ShardProxy.Wire.Reply
