import ShardProxy.Wire.Scan

/-!
# Messages

A message is a protocol unit together with the exact bytes it was read from, so that a request
can be relayed to a backend byte for byte.
-/

namespace ShardProxy.Wire

structure Message where
  raw : Bytes
  value : Value
  deriving Repr

namespace Message

/-- The first message of some bytes. -/
def read (b : Bytes) : Scan Message :=
  (scan b).andThen fun v rest => .done ⟨b.take (b.length - rest.length), v⟩ rest

def kind (m : Message) : Kind := m.value.kind

/-- The token that one array element carries: a null bulk is an empty token, and an element of
another form carries none. -/
def tokenOf : Value → Option Bytes
  | .bulk (some data) => some data
  | .bulk none => some []
  | _ => none

/-- The array elements; nothing for any other message. -/
def elements (m : Message) : List Value :=
  match m.value with
  | .array (some items) => items
  | _ => []

def tokenCount (m : Message) : Nat := m.elements.length

def token? (m : Message) (i : Nat) : Option Bytes := m.elements[i]?.bind tokenOf

def tokens (m : Message) : List Bytes := m.elements.filterMap tokenOf

def integer? (m : Message) : Option Int64 :=
  match m.value with
  | .integer n => some n
  | _ => none

/-- The status `OK`. -/
def isOk (m : Message) : Bool :=
  match m.value with
  | .status text => text == [79, 75]
  | _ => false

end Message

/-- The length of the first message of some bytes. -/
def frameLength (b : Bytes) : Scan Nat :=
  (scan b).andThen fun _ rest => .done (b.length - rest.length) rest

end ShardProxy.Wire
