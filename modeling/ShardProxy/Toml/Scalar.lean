import ShardProxy.Toml.Value

/-!
# TOML scalars

Strings in their four forms, integers, floats and dates, read from the front of a text. A reader
fails where the text has no such scalar.
-/

namespace ShardProxy.Toml

/-- Reads something from the front of a text. -/
abbrev Read := StateT (List Char) Option

namespace Read

def rest : Read (List Char) := get

def peek : Read (Option Char) := do return (← get).head?

/-- The next character, if it satisfies `p`. -/
def one (p : Char → Bool) : Read Char := do
  match ← get with
  | c :: cs =>
    if p c then
      set cs
      return c
    else failure
  | [] => failure

def char (c : Char) : Read Unit := do let _ ← one (· == c)

/-- A fixed text. -/
def word (w : String) : Read Unit := do
  let cs ← get
  if w.toList.isPrefixOf cs then set (cs.drop w.length) else failure

/-- As many characters as satisfy `p`. -/
def span (p : Char → Bool) : Read (List Char) := do
  let cs ← get
  set (cs.dropWhile p)
  return cs.takeWhile p

def span1 (p : Char → Bool) : Read (List Char) := do
  let cs ← span p
  if cs.isEmpty then failure else return cs

def isBlank (c : Char) : Bool := c == ' ' || c == '\t'

def blanks : Read Unit := do let _ ← span isBlank

/-- A line feed, with or without a carriage return before it. -/
def newline : Read Unit := char '\n' <|> word "\r\n"

/-- A character that may stand in a comment: no control character but the tab. -/
def isVisible (c : Char) : Bool := c == '\t' || (' ' ≤ c && c.toNat != 0x7F)

/-- A comment, up to the end of its line. -/
def comment : Read Unit := do
  char '#'
  let _ ← span isVisible

end Read

namespace Scalar

open Read

/-! ## Strings -/

def hexValue? (c : Char) : Option Nat :=
  if c.isDigit then some (c.toNat - 48)
  else if 'a' ≤ c ∧ c ≤ 'f' then some (c.toNat - 87)
  else if 'A' ≤ c ∧ c ≤ 'F' then some (c.toNat - 55)
  else none

/-- The character of a fixed number of hexadecimal digits. Surrogates are none. -/
def codePoint (digits : Nat) : Read Char := do
  let cs ← get
  let hex := (cs.take digits).filterMap hexValue?
  let n := hex.foldl (fun n d => n * 16 + d) 0
  if hex.length != digits || (0xD800 ≤ n && n ≤ 0xDFFF) || 0x110000 ≤ n then failure
  else
    set (cs.drop digits)
    return Char.ofNat n

/-- What follows the backslash of an escape. -/
def escape : Read Char := do
  match ← one fun _ => true with
  | 'b' => return '\x08'
  | 't' => return '\t'
  | 'n' => return '\n'
  | 'f' => return '\x0c'
  | 'r' => return '\r'
  | '"' => return '"'
  | '\\' => return '\\'
  | 'u' => codePoint 4
  | 'U' => codePoint 8
  | _ => failure

/-- The rest of a string in double quotes. -/
def basicRest (acc : List Char) : Nat → Read String
  | 0 => failure
  | fuel + 1 => do
    match ← one isVisible with
    | '"' => return String.ofList acc.reverse
    | '\\' =>
      let c ← escape
      basicRest (c :: acc) fuel
    | c => basicRest (c :: acc) fuel

/-- A string in double quotes, on one line. -/
def basic : Read String := do
  char '"'
  basicRest [] ((← get).length + 1)

/-- A string in single quotes, on one line, without escapes. -/
def literal : Read String := do
  char '\''
  let cs ← span fun c => isVisible c && c != '\''
  char '\''
  return String.ofList cs

/-- The blank rest of a line that ends in a backslash, and all blank space after it. -/
def lineEnding : Read Unit := do
  blanks
  newline
  let cs ← get
  let rec skip : List Char → Nat → List Char
    | ' ' :: cs, fuel + 1 | '\t' :: cs, fuel + 1 | '\n' :: cs, fuel + 1 => skip cs fuel
    | '\r' :: '\n' :: cs, fuel + 1 => skip cs fuel
    | cs, _ => cs
  set (skip cs cs.length)

/-- The end of a multi-line string: three quotes, with up to two more that belong to the string. -/
def closing (quote : Char) (acc : List Char) : Read String := do
  let quotes ← span (· == quote)
  if quotes.length < 3 || 5 < quotes.length then failure
  else return String.ofList (acc.reverse ++ quotes.drop 3)

/-- The rest of a multi-line string. Line ends are read as line feeds. -/
def multilineRest (quote : Char) (escapes : Bool) (acc : List Char) : Nat → Read String
  | 0 => failure
  | fuel + 1 => do
    match ← get with
    | '\n' :: cs => set cs; multilineRest quote escapes ('\n' :: acc) fuel
    | '\r' :: '\n' :: cs => set cs; multilineRest quote escapes ('\n' :: acc) fuel
    | c :: cs =>
      if c == quote then
        let run := (c :: cs).takeWhile (· == quote)
        if run.length < 3 then
          set ((c :: cs).drop run.length)
          multilineRest quote escapes (run ++ acc) fuel
        else closing quote acc
      else if escapes && c == '\\' then
        set cs
        match ← optional lineEnding with
        | some () => multilineRest quote escapes acc fuel
        | none =>
          let e ← escape
          multilineRest quote escapes (e :: acc) fuel
      else if isVisible c then set cs; multilineRest quote escapes (c :: acc) fuel
      else failure
    | [] => failure

/-- A string between triple quotes. A line end right after the first three is no part of it. -/
def multiline (quote : Char) (escapes : Bool) : Read String := do
  word (String.ofList [quote, quote, quote])
  let _ ← optional newline
  multilineRest quote escapes [] ((← get).length + 1)

def string : Read String := multiline '"' true <|> multiline '\'' false <|> basic <|> literal

/-! ## Numbers -/

/-- Digits of a base, with single underscores between them. -/
def digitRun (base : Nat) : Read (List Nat) := do
  let isDigit (c : Char) : Bool := (hexValue? c).any (· < base)
  let cs ← span1 fun c => isDigit c || c == '_'
  let groups := (String.ofList cs).splitOn "_"
  if groups.any (·.isEmpty) then failure
  else return cs.filterMap hexValue?

def ofDigits (base : Nat) (ds : List Nat) : Nat := ds.foldl (fun n d => n * base + d) 0

/-- An optional sign; the answer says whether it is a minus. -/
def sign : Read Bool := (do char '-'; return true) <|> (do char '+'; return false) <|> pure false

/-- The digits of a decimal integer: no zero in front of others. -/
def decimalDigits : Read (List Nat) := do
  let ds ← digitRun 10
  if 1 < ds.length && ds.head? == some 0 then failure else return ds

def bounded (n : Int) : Read Int :=
  if Int64.minValue.toInt ≤ n ∧ n ≤ Int64.maxValue.toInt then pure n else failure

def integer : Read Int :=
  (do word "0x"; bounded (ofDigits 16 (← digitRun 16)))
  <|> (do word "0o"; bounded (ofDigits 8 (← digitRun 8)))
  <|> (do word "0b"; bounded (ofDigits 2 (← digitRun 2)))
  <|> (do
    let negative ← sign
    let n : Nat := ofDigits 10 (← decimalDigits)
    bounded (if negative then -n else n))

/-- A decimal that is too large for any finite float. -/
def isInfinite (digits : List Nat) (exponent : Int) : Bool :=
  let significant := digits.dropWhile (· == 0)
  let magnitude := (significant.length : Int) + exponent
  if significant.isEmpty || magnitude < 300 then false
  else if 310 < magnitude then true
  else
    let n := ofDigits 10 significant
    let bound := 1 <<< 1024 - 1 <<< 970
    let scale := Nat.pow 10 exponent.natAbs
    if exponent < 0 then bound * scale ≤ n else bound ≤ n * scale

def exponentPart : Read Int := do
  let _ ← one fun c => c == 'e' || c == 'E'
  let negative ← sign
  let n : Nat := ofDigits 10 (← digitRun 10)
  return if negative then -n else n

/-- A float. One that overflows upwards is refused. -/
def float : Read Unit :=
  (do
    let negative ← sign
    let whole ← decimalDigits
    let fraction ← optional (do char '.'; digitRun 10)
    let exponent ← optional exponentPart
    if fraction.isNone && exponent.isNone then failure
    let places := fraction.getD []
    if !negative && isInfinite (whole ++ places) (exponent.getD 0 - places.length) then failure)
  <|> (do
    let _ ← sign
    word "inf" <|> word "nan")

/-! ## Dates -/

/-- A number of fixed width within bounds. -/
def field (width lo hi : Nat) : Read Nat := do
  let cs ← get
  let ds := cs.take width
  if ds.length != width || !ds.all (·.isDigit) then failure
  let n := ofDigits 10 (ds.filterMap hexValue?)
  if n < lo || hi < n then failure
  set (cs.drop width)
  return n

def daysIn (year month : Nat) : Nat :=
  let leap := (year % 4 == 0 && year % 100 != 0) || year % 400 == 0
  if month == 2 then (if leap then 29 else 28)
  else if [4, 6, 9, 11].contains month then 30
  else 31

def fullDate : Read Unit := do
  let year ← field 4 0 9999
  char '-'
  let month ← field 2 1 12
  char '-'
  let _ ← field 2 1 (daysIn year month)

def timeOfDay : Read Unit := do
  let _ ← field 2 0 23
  char ':'
  let _ ← field 2 0 59
  char ':'
  let _ ← field 2 0 60
  let _ ← optional (do char '.'; span1 (·.isDigit))

def offset : Read Unit :=
  (do let _ ← one fun c => c == 'Z' || c == 'z')
  <|> (do
    let _ ← one fun c => c == '+' || c == '-'
    let _ ← field 2 0 23
    char ':'
    let _ ← field 2 0 59)

def date : Read Unit :=
  (do
    fullDate
    let _ ← optional (do
      let _ ← one fun c => c == 'T' || c == 't' || c == ' '
      timeOfDay
      optional offset))
  <|> timeOfDay

end Scalar

end ShardProxy.Toml
