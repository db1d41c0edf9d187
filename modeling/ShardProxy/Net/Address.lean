import ShardProxy.Text.Bytes

/-!
# Socket addresses

An IPv4 or IPv6 address and a port, read from and written as text. An address without a port is
no socket address, and host names are none either.

* `Address.parse?` — reads the whole of a text;
* `Address.render` — the canonical text: lower-case groups without leading zeros, the leftmost
  longest run of two or more zero groups as `::`, and mapped IPv4 addresses in dotted form.
-/

namespace ShardProxy.Net

inductive Ip where
  | v4 (octets : List UInt8)
  | v6 (groups : List UInt16)
  deriving DecidableEq, Repr, Inhabited

structure Address where
  ip : Ip
  scope : UInt32
  port : UInt16
  deriving DecidableEq, Repr, Inhabited

/-! ## Writing -/

namespace Ip

def isV6 : Ip → Bool
  | v4 _ => false
  | v6 _ => true

/-- The start and length of the leftmost longest run of zero groups. -/
def zeroRun (groups : List UInt16) : Nat × Nat :=
  let runAt (i : Nat) : Nat := ((groups.drop i).takeWhile (· == 0)).length
  (List.range groups.length).foldl (fun best i => if best.2 < runAt i then (i, runAt i) else best)
    (0, 0)

def renderGroups (groups : List UInt16) : String :=
  ":".intercalate (groups.map fun g => String.ofList (Nat.toDigits 16 g.toNat))

def renderOctets (octets : List UInt8) : String :=
  ".".intercalate (octets.map fun o => toString o.toNat)

/-- The two octets of a group. -/
def octetsOf (g : UInt16) : List UInt8 := [(g >>> 8).toUInt8, g.toUInt8]

def render : Ip → String
  | v4 octets => renderOctets octets
  | v6 groups =>
    if groups.take 6 == [0, 0, 0, 0, 0, 0xFFFF] then
      "::ffff:" ++ renderOctets ((groups.drop 6).flatMap octetsOf)
    else
      let (start, length) := zeroRun groups
      if 1 < length then
        renderGroups (groups.take start) ++ "::" ++ renderGroups (groups.drop (start + length))
      else renderGroups groups

end Ip

/-! ## Reading -/

namespace Reader

/-- Reads something from the front of a text. -/
abbrev Reads (α : Type) := List Char → Option (α × List Char)

def char (c : Char) : Reads Unit
  | d :: rest => if c = d then some ((), rest) else none
  | [] => none

def digit? (base : Nat) (c : Char) : Option Nat :=
  let value :=
    if '0' ≤ c ∧ c ≤ '9' then some (c.toNat - 48)
    else if 'a' ≤ c ∧ c ≤ 'f' then some (c.toNat - 87)
    else if 'A' ≤ c ∧ c ≤ 'F' then some (c.toNat - 55)
    else none
  value.filter (· < base)

/-- A number of one or more digits, no more than `most` of them if that is given, below `bound`. -/
def number (base bound : Nat) (most : Option Nat) (leadingZero : Bool) : Reads Nat := fun cs =>
  let digits := (cs.takeWhile fun c => (digit? base c).isSome).filterMap (digit? base)
  let value := digits.foldl (fun n d => n * base + d) 0
  if digits.isEmpty then none
  else if (most.any fun m => m < digits.length) then none
  else if !leadingZero && 1 < digits.length && digits.head? == some 0 then none
  else if bound ≤ value then none
  else some (value, cs.drop digits.length)

def octet : Reads UInt8 :=
  fun cs => (number 10 256 (some 3) false cs).map fun (n, rest) => (n.toUInt8, rest)

/-- Four decimal octets. -/
def octets : Reads (List UInt8) := fun cs => do
  let (a, cs) ← octet cs
  let ((), cs) ← char '.' cs
  let (b, cs) ← octet cs
  let ((), cs) ← char '.' cs
  let (c, cs) ← octet cs
  let ((), cs) ← char '.' cs
  let (d, cs) ← octet cs
  return ([a, b, c, d], cs)

def group : Reads UInt16 :=
  fun cs => (number 16 65536 (some 4) true cs).map fun (n, rest) => (n.toUInt16, rest)

/-- The colon before every group but the first. -/
def separated {α : Type} (first : Bool) (r : Reads α) : Reads α := fun cs =>
  if first then r cs else (char ':' cs).bind fun ((), rest) => r rest

def groupsOf : List UInt8 → List UInt16
  | a :: b :: rest => (a.toUInt16 <<< 8 ||| b.toUInt16) :: groupsOf rest
  | _ => []

/-- As many groups as there are, up to a limit, and whether they end in dotted form, which stands
for two groups. -/
def groups (first : Bool) : Nat → List Char → List UInt16 × Bool × List Char
  | 0, cs => ([], false, cs)
  | left + 1, cs =>
    let dotted := if left = 0 then none else separated first octets cs
    match dotted with
    | some (os, rest) => (groupsOf os, true, rest)
    | none =>
      match separated first group cs with
      | none => ([], false, cs)
      | some (g, rest) =>
        let (gs, dotted, rest) := groups false left rest
        (g :: gs, dotted, rest)

def v6 : Reads (List UInt16) := fun cs =>
  let (head, dotted, rest) := groups true 8 cs
  if head.length = 8 then some (head, rest)
  else if dotted then none
  else do
    let ((), rest) ← char ':' rest
    let ((), rest) ← char ':' rest
    let (tail, _, rest) := groups true (7 - head.length) rest
    return (head ++ List.replicate (8 - head.length - tail.length) 0 ++ tail, rest)

def port : Reads UInt16 := fun cs => do
  let ((), cs) ← char ':' cs
  let (n, cs) ← number 10 65536 none true cs
  return (n.toUInt16, cs)

/-- The zone of a link-local address, zero when there is none. -/
def zone : List Char → UInt32 × List Char := fun cs =>
  let given := (char '%' cs).bind fun ((), rest) => number 10 UInt32.size none true rest
  match given with
  | some (n, rest) => (n.toUInt32, rest)
  | none => (0, cs)

def addressV4 : Reads Address := fun cs => do
  let (os, cs) ← octets cs
  let (p, cs) ← port cs
  return (⟨.v4 os, 0, p⟩, cs)

def addressV6 : Reads Address := fun cs => do
  let ((), cs) ← char '[' cs
  let (gs, cs) ← v6 cs
  let (scope, cs) := zone cs
  let ((), cs) ← char ']' cs
  let (p, cs) ← port cs
  return (⟨.v6 gs, scope, p⟩, cs)

end Reader

namespace Address

def isV6 (a : Address) : Bool := a.ip.isV6

def render (a : Address) : String :=
  let host :=
    if a.isV6 then
      "[" ++ a.ip.render ++ (if a.scope = 0 then "" else "%" ++ toString a.scope.toNat) ++ "]"
    else a.ip.render
  host ++ ":" ++ toString a.port.toNat

/-- The address that a whole text spells. -/
def parse? (text : String) : Option Address :=
  match Reader.addressV4 text.toList <|> Reader.addressV6 text.toList with
  | some (a, []) => some a
  | _ => none

/-- What is said of a text that is no address. -/
def syntaxMessage : String := "invalid socket address syntax"

end Address

end ShardProxy.Net
