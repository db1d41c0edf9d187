import ShardProxy.Text.Bytes

/-!
# Wire values and how they are written

* `Value` — the five forms of a protocol unit;
* `Value.encode` — its canonical bytes;
* `command` — a request: an array of bulk strings.
-/

namespace ShardProxy.Wire

def cr : UInt8 := 13
def lf : UInt8 := 10
def plus : UInt8 := 43
def minus : UInt8 := 45
def colon : UInt8 := 58
def dollar : UInt8 := 36
def star : UInt8 := 42

/-- The line end. -/
def crlf : Bytes := [cr, lf]

/-- One protocol unit. `none` is the null bulk or the null array. -/
inductive Value where
  | status (text : Bytes)
  | error (text : Bytes)
  | integer (n : Int64)
  | bulk (data : Option Bytes)
  | array (items : Option (List Value))
  deriving Repr, Inhabited

inductive Kind where
  | status | error | integer | bulk | array
  deriving DecidableEq, Repr

def Value.kind : Value → Kind
  | status _ => .status
  | error _ => .error
  | integer _ => .integer
  | bulk _ => .bulk
  | array _ => .array

/-- The decimal digits of a number, the most significant first. -/
def digits (n : Nat) : Bytes :=
  if n < 10 then [48 + n.toUInt8] else digits (n / 10) ++ [48 + (n % 10).toUInt8]
termination_by n

def signed (n : Int) : Bytes :=
  if n < 0 then minus :: digits n.natAbs else digits n.natAbs

def writeInteger (n : Int) : Bytes := colon :: signed n ++ crlf

def writeBulk (data : Bytes) : Bytes := dollar :: digits data.length ++ crlf ++ data ++ crlf

def writeArrayHeader (n : Nat) : Bytes := star :: digits n ++ crlf

mutual
/-- The canonical bytes of a value. -/
def Value.encode : Value → Bytes
  | .status text => plus :: text ++ crlf
  | .error text => minus :: text ++ crlf
  | .integer n => writeInteger n.toInt
  | .bulk none => dollar :: signed (-1) ++ crlf
  | .bulk (some data) => writeBulk data
  | .array none => star :: signed (-1) ++ crlf
  | .array (some items) => writeArrayHeader items.length ++ Value.encodeAll items
/-- The canonical bytes of a list of values, one after the other. -/
def Value.encodeAll : List Value → Bytes
  | [] => []
  | v :: vs => v.encode ++ Value.encodeAll vs
end

/-- A request: an array of bulk strings. -/
def command (parts : List Bytes) : Bytes :=
  writeArrayHeader parts.length ++ parts.flatMap writeBulk

end ShardProxy.Wire
