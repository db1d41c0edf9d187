import ShardProxy.Text.Printable

/-!
# Text for people

* `row` — a row of cells, each padded to the width of its column;
* `formatDuration` — whole seconds, with minutes and hours as far as they are reached;
* `quote`, `quotePath` — text between double quotes in which everything that does not show is
  escaped: the common control characters by a letter, all others by their code point. Paths escape
  single quotes as well.
-/

namespace ShardProxy.Text

/-- Pads a text with blanks to a number of characters; a longer one stays as it is. -/
def padRight (width : Nat) (s : String) : String :=
  s ++ String.ofList (List.replicate (width - s.length) ' ')

/-- One row. Cells are set apart by a blank. -/
def row (cells : List (Nat × String)) : String :=
  " ".intercalate (cells.map fun (w, s) => padRight w s)

def formatDuration (ms : Nat) : String :=
  let secs := ms / 1000
  if secs < 60 then toString secs ++ "s"
  else if secs < 3600 then toString (secs / 60) ++ "m" ++ toString (secs % 60) ++ "s"
  else
    toString (secs / 3600) ++ "h" ++ toString (secs % 3600 / 60) ++ "m" ++ toString (secs % 60) ++ "s"

/-! ## Quotes -/

def escapeChar (singleQuotes : Bool) (c : Char) : List Char :=
  match c with
  | '\x00' => ['\\', '0']
  | '\t' => ['\\', 't']
  | '\r' => ['\\', 'r']
  | '\n' => ['\\', 'n']
  | '\\' => ['\\', '\\']
  | '"' => ['\\', '"']
  | '\'' => if singleQuotes then ['\\', '\''] else ['\'']
  | c =>
    if isPrintable c then [c]
    else ['\\', 'u', Char.ofNat 0x7B] ++ Nat.toDigits 16 c.toNat ++ [Char.ofNat 0x7D]

def quoteWith (singleQuotes : Bool) (s : String) : String :=
  String.ofList ('"' :: s.toList.flatMap (escapeChar singleQuotes) ++ ['"'])

def quote (s : String) : String := quoteWith false s

def quotePath (s : String) : String := quoteWith true s

end ShardProxy.Text
