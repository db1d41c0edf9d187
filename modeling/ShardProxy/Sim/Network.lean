import ShardProxy.Failure

/-!
# The network around the proxy

What becomes of a dial to an address at which no host listens, and of an attempt to listen on an
address.
-/

namespace ShardProxy.Sim

/-- What surrounds the proxy: the ordinary network of a host, or no network at all. -/
inductive Network where
  | isolated | loopback
  deriving DecidableEq, Repr, Inhabited

namespace Network

/-- What becomes of a dial. -/
inductive Reach where
  | refused (text : String)
  | silent
  deriving DecidableEq, Repr

def unreachable : String := "Network is unreachable (os error 101)"
def connectionRefused : String := "Connection refused (os error 111)"

/-- What becomes of a dial to an address at which no host listens. -/
def reach (n : Network) (a : Net.Address) : Reach :=
  match n, a.ip with
  | .isolated, _ => .refused unreachable
  | .loopback, .v4 (127 :: _) => .refused connectionRefused
  | .loopback, .v4 [0, 0, 0, 0] => .refused connectionRefused
  | .loopback, .v4 (192 :: 0 :: 2 :: _) => .silent
  | .loopback, .v4 _ => .refused unreachable
  | .loopback, .v6 groups =>
    if groups.take 7 == List.replicate 7 0 then .refused connectionRefused
    else .refused "Cannot assign requested address (os error 99)"

def permissionDenied : String := "Permission denied (os error 13)"

/-- The least port that every program may bind. -/
def firstUserPort : Nat := 1024

/-- An address of this machine. -/
def isOwn : Net.Ip → Bool
  | .v4 (127 :: _) => true
  | .v4 os => os == [0, 0, 0, 0]
  | .v6 groups =>
    groups.take 7 == List.replicate 7 0 && (groups.drop 7 == [0] || groups.drop 7 == [1])

/-- Binds an address to listen on. Without a network the low ports are out of reach. -/
def bind (n : Network) (a : Net.Address) : Except Failure Unit :=
  if n == .isolated && a.port != 0 && a.port.toNat < firstUserPort then
    .error (.network permissionDenied)
  else if isOwn a.ip then .ok ()
  else .error (.network "Cannot assign requested address (os error 99)")

end Network

end ShardProxy.Sim
