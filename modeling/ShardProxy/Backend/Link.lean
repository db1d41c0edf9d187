import ShardProxy.Backend.Exchange
import ShardProxy.Backend.Pool
import ShardProxy.Wire.Reply

/-!
# Links

A link is one transport connection. Bytes that came in on it wait until an exchange reads them;
after them comes the end, if the other side has closed it. A connection is made by dialling a link
and, where the host has a password, by one exchange that presents it.

* `Link.read` — lets an exchange read what waits;
* `Profile.vet` — whether the host's reply admits us.
-/

namespace ShardProxy.Backend

/-- How the other side ended a link. -/
inductive Ending where
  | closed
  | reset (text : String)
  deriving DecidableEq, Repr

def Ending.failure : Ending → Failure
  | closed => .closedByBackend
  | reset text => .network text

structure Link where
  unread : Bytes := []
  ending : Option Ending := none
  deriving DecidableEq, Repr

namespace Link

/-- Nothing has come in. -/
def quiet : Link := {}

/-- Lets an exchange read until it is done or nothing more is there. `fuel` bounds the number of
reads; each takes a byte at least. -/
def readSteps (e : Exchange) (l : Link) : Nat → Exchange.Verdict × Link
  | 0 => (.waiting e, l)
  | fuel + 1 =>
    match l.unread with
    | [] =>
      match l.ending with
      | none => (.waiting e, l)
      | some ending => (.failed ending.failure, l)
    | unread =>
      let l := { l with unread := unread.drop e.room }
      match e.feed (unread.take e.room) with
      | .waiting e => readSteps e l fuel
      | verdict => (verdict, l)

def read (e : Exchange) (l : Link) : Exchange.Verdict × Link := l.readSteps e (l.unread.length + 1)

end Link

/-- A host and how it is served. -/
structure Profile where
  name : String
  address : String
  master : Bool
  poolSize : Nat := 50
  password : Option Bytes := none
  /-- How long a dial may take, in milliseconds. -/
  connectMs : Nat := 1000
  /-- The pause before each attempt to reconnect, in milliseconds. -/
  retryMs : Nat := 1000
  retryLimit : Nat := 100
  /-- How long an exchange may take, in milliseconds; any time if it is not given. -/
  timeoutMs : Option Nat := none
  deriving DecidableEq, Repr

namespace Profile

/-- The request that presents the password. -/
def authRequest (password : Bytes) : Bytes := Wire.command [Text.utf8 "AUTH", password]

/-- White space of Unicode. -/
def isBlank (c : Char) : Bool :=
  let n := c.toNat
  (9 ≤ n && n ≤ 13) || n == 0x20 || n == 0x85 || n == 0xA0 || n == 0x1680
    || (0x2000 ≤ n && n ≤ 0x200A)
    || n == 0x2028 || n == 0x2029 || n == 0x202F || n == 0x205F || n == 0x3000

def trimEnd (s : String) : String := String.ofList ((s.toList.reverse.dropWhile isBlank).reverse)

/-- Only an exact OK admits us. -/
def vet (p : Profile) (reply : Bytes) : Option Failure :=
  if reply == Wire.Reply.ok then none
  else
    let text := trimEnd (Text.decodeLossy reply)
    some (.auth ("backend " ++ p.address ++ " rejected AUTH: " ++ text))

def poolClosed (p : Profile) : Failure := .backend ("pool to " ++ p.address ++ " is closed")

def unavailable (p : Profile) : Failure :=
  .backend ("servant " ++ p.name ++ " (" ++ p.address ++ ") unavailable")

def exchangeTimedOut (p : Profile) : Failure := .timeout ("backend " ++ p.address)

def dialTimedOut (p : Profile) : Failure := .timeout ("connect to " ++ p.address)

end Profile

end ShardProxy.Backend
