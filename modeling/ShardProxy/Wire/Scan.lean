import ShardProxy.Wire.Value

/-!
# Reading the wire

`scan` reads one protocol unit from the front of a byte string. Its verdict is one of three: a
value and the bytes after it, more bytes are needed, or the bytes are malformed and for which
reason. Arrays hold bulk strings only, so a unit nests no deeper than that.
-/

namespace ShardProxy.Wire

/-- The most elements that one array may carry. -/
def maxElements : Nat := 1024

/-- The longest bulk string, 512 MiB. -/
def maxBulk : Nat := 512 * 1024 * 1024

/-- Why bytes are no protocol unit. -/
inductive Defect where
  | emptyInput
  | unknownTag
  | strayCarriageReturn
  | invalidNumberCharacter
  | invalidNumber
  | negativeBulkLength
  | bulkTooLarge
  | bulkNotTerminated
  | negativeArrayLength
  | tooManyElements
  | elementNotBulk
  deriving DecidableEq, Repr

def Defect.reason : Defect → String
  | emptyInput => "empty input"
  | unknownTag => "unknown type tag"
  | strayCarriageReturn => "CR not followed by LF"
  | invalidNumberCharacter => "invalid character in number"
  | invalidNumber => "invalid number"
  | negativeBulkLength => "negative bulk length"
  | bulkTooLarge => "bulk length too large"
  | bulkNotTerminated => "bulk string not terminated by CRLF"
  | negativeArrayLength => "negative array length"
  | tooManyElements => "too many array elements"
  | elementNotBulk => "array element is not a bulk string"

def Defect.message (d : Defect) : String := "Malformed RESP data: " ++ d.reason

/-- The verdict on the front of a byte string: something was read and `rest` follows it, the
bytes break off too early, or they are malformed. -/
inductive Scan (α : Type) where
  | done (value : α) (rest : Bytes)
  | incomplete
  | malformed (why : Defect)
  deriving DecidableEq, Repr

namespace Scan

def andThen {α β : Type} : Scan α → (α → Bytes → Scan β) → Scan β
  | done a rest, f => f a rest
  | incomplete, _ => incomplete
  | malformed why, _ => malformed why

def map {α β : Type} (f : α → β) (s : Scan α) : Scan β :=
  s.andThen fun a rest => done (f a) rest

end Scan

/-- The line end that must come next; `before` is what it ends. -/
def endOfLine {α : Type} (before : α) : Bytes → Scan α
  | [] => .incomplete
  | b :: rest => if b = lf then .done before rest else .malformed .strayCarriageReturn

/-- Text up to the first CR, which must be part of a line end. -/
def scanLine (b : Bytes) : Scan Bytes :=
  match b.dropWhile (· != cr) with
  | [] => .incomplete
  | _ :: rest => endOfLine (b.takeWhile (· != cr)) rest

def isDigit (b : UInt8) : Bool := 48 ≤ b && b ≤ 57

/-- The value of a digit string. -/
def ofDigits (ds : Bytes) : Nat := ds.foldl (fun n d => n * 10 + (d.toNat - 48)) 0

/-- The number that an optional sign and some digits spell, if it fits in 64 bits. -/
def readInt64 (negative : Bool) (ds : Bytes) : Option Int64 :=
  if ds.isEmpty then none
  else
    let n : Int := if negative then -(ofDigits ds : Int) else ofDigits ds
    if Int64.minValue.toInt ≤ n ∧ n ≤ Int64.maxValue.toInt then some (Int64.ofInt n) else none

/-- The sign at the front, as "is it negative", and what follows it. -/
def splitSign : Bytes → Bool × Bytes
  | [] => (false, [])
  | b :: rest =>
    if b = minus then (true, rest) else if b = plus then (false, rest) else (false, b :: rest)

/-- An optionally signed decimal number and its line end. -/
def scanNumber (b : Bytes) : Scan Int64 :=
  let (negative, body) := splitSign b
  let ds := body.takeWhile isDigit
  match body.dropWhile isDigit with
  | [] => .incomplete
  | c :: rest =>
    if c != cr then .malformed .invalidNumberCharacter
    else (endOfLine () rest).andThen fun _ rest =>
      match readInt64 negative ds with
      | none => .malformed .invalidNumber
      | some n => .done n rest

/-- The decimal number that a whole byte string spells. -/
def number? (b : Bytes) : Option Int64 :=
  let (negative, body) := splitSign b
  if body.all isDigit then readInt64 negative body else none

/-- A bulk string after its tag. The length comes first, so the data may hold any bytes. -/
def scanBulk (b : Bytes) : Scan (Option Bytes) :=
  (scanNumber b).andThen fun n rest =>
    if n = -1 then .done none rest
    else if n < 0 then .malformed .negativeBulkLength
    else
      let len := n.toInt.toNat
      if maxBulk < len then .malformed .bulkTooLarge
      else match rest.drop len with
        | c :: l :: rest' =>
          if c = cr ∧ l = lf then .done (some (rest.take len)) rest'
          else .malformed .bulkNotTerminated
        | _ => .incomplete

/-- The `n` bulk strings of an array. -/
def scanBulks : Nat → Bytes → Scan (List (Option Bytes))
  | 0, b => .done [] b
  | _ + 1, [] => .incomplete
  | n + 1, tag :: b =>
    if tag != dollar then .malformed .elementNotBulk
    else (scanBulk b).andThen fun item rest => (scanBulks n rest).map (item :: ·)

/-- An array after its tag. -/
def scanArray (b : Bytes) : Scan (Option (List (Option Bytes))) :=
  (scanNumber b).andThen fun n rest =>
    if n = -1 then .done none rest
    else if n < 0 then .malformed .negativeArrayLength
    else
      let count := n.toInt.toNat
      if maxElements < count then .malformed .tooManyElements
      else (scanBulks count rest).map some

/-- One protocol unit. Empty input has no tag and is malformed. -/
def scan : Bytes → Scan Value
  | [] => .malformed .emptyInput
  | tag :: b =>
    if tag = plus then (scanLine b).map .status
    else if tag = minus then (scanLine b).map .error
    else if tag = colon then (scanNumber b).map .integer
    else if tag = dollar then (scanBulk b).map .bulk
    else if tag = star then (scanArray b).map fun items => .array (items.map (·.map .bulk))
    else .malformed .unknownTag

end ShardProxy.Wire
