/-!
# Writing TOML

A document that is written has its plain fields first and then sections, each under the header of
a table or of one more element of an array of tables. A string is written in the first form that
can hold it as it is, and with escapes if none can.
-/

namespace ShardProxy.Toml

inductive Scalar.Plain where
  | string (s : String)
  | integer (n : Nat)
  | boolean (b : Bool)
  /-- An array without items. -/
  | emptyArray

/-- A table or one element of an array of tables, with its plain fields. -/
structure Section where
  path : String
  isElement : Bool := false
  fields : List (String × Scalar.Plain)

/-! ## Strings -/

def isControl (c : Char) : Bool := c.toNat < 0x20 || c.toNat == 0x7F

/-- The longest run of a character. -/
def longestRun (c : Char) (cs : List Char) : Nat :=
  let step : Nat × Nat → Char → Nat × Nat := fun (best, run) d =>
    if d == c then (max best (run + 1), run + 1) else (best, 0)
  (cs.foldl step (0, 0)).1

def hex4 (n : Nat) : List Char :=
  let ds := (Nat.toDigits 16 n).map Char.toUpper
  List.replicate (4 - ds.length) '0' ++ ds

/-- The escaped form of a character, where it needs one. -/
def escapeOf (multiline : Bool) (c : Char) : List Char :=
  match c with
  | '\x08' => ['\\', 'b']
  | '\t' => ['\\', 't']
  | '\n' => if multiline then ['\n'] else ['\\', 'n']
  | '\x0c' => ['\\', 'f']
  | '\r' => ['\\', 'r']
  | '\\' => ['\\', '\\']
  | c => if isControl c then ['\\', 'u'] ++ hex4 c.toNat else [c]

/-- Escapes a text. Up to two double quotes in a row stand as they are in a multi-line string. -/
def escaped (multiline : Bool) (run : Nat) : List Char → List Char
  | [] => []
  | '"' :: cs =>
    if multiline && run < 2 then '"' :: escaped multiline (run + 1) cs
    else '\\' :: '"' :: escaped multiline 0 cs
  | c :: cs => escapeOf multiline c ++ escaped multiline 0 cs

def quoted (delimiter : String) (body : List Char) : String :=
  delimiter ++ String.ofList body ++ delimiter

/-- A multi-line string begins with a line end if it has one. -/
def quotedLines (delimiter : String) (body : List Char) : String :=
  quoted delimiter (if body.contains '\n' then '\n' :: body else body)

def basic (cs : List Char) : String := quoted "\"" (escaped false 0 cs)
def basicLines (cs : List Char) : String := quotedLines "\"\"\"" (escaped true 0 cs)

/-- Control characters that only an escape can stand for. A line end ends a line, and a tab fits
every form: as it is between single quotes, and as an escape between double ones. -/
def needsEscape (c : Char) : Bool := isControl c && c != '\n' && c != '\t'

/-- The first form that fits: between double or single quotes, then the same with lines. Where none
does, double quotes with escapes. -/
def writeString (s : String) : String :=
  let cs := s.toList
  let lines := cs.contains '\n'
  let control := cs.any needsEscape
  let backslash := cs.contains '\\'
  if !control && !lines && !backslash && !cs.contains '"' then basic cs
  else if !control && !lines && !cs.contains '\'' then quoted "'" cs
  else if !control && !backslash && longestRun '"' cs ≤ 2 then basicLines cs
  else if !control && longestRun '\'' cs ≤ 2 then quotedLines "'''" cs
  else if lines then basicLines cs
  else basic cs

/-! ## Documents -/

def Scalar.Plain.write : Scalar.Plain → String
  | string s => writeString s
  | integer n => toString n
  | boolean b => toString b
  | emptyArray => "[]"

def writeField (f : String × Scalar.Plain) : String := f.1 ++ " = " ++ f.2.write ++ "\n"

def Section.write (s : Section) : String :=
  let header := if s.isElement then "[[" ++ s.path ++ "]]" else "[" ++ s.path ++ "]"
  header ++ "\n" ++ String.join (s.fields.map writeField)

/-- Plain fields, then sections, with a blank line before each but at the start. -/
def write (fields : List (String × Scalar.Plain)) (sections : List Section) : String :=
  let blocks := (if fields.isEmpty then [] else [String.join (fields.map writeField)])
    ++ sections.map (·.write)
  "\n".intercalate blocks

end ShardProxy.Toml
