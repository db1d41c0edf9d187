import ShardProxy.Toml.Scalar

/-!
# Reading TOML

A document is a list of lines: a key with its value, the header of a table, or the header of one
more element of an array of tables. No key is defined twice, and a table once defined is not
extended by a second header or by a dotted key.

* `parse?` — the table that a whole text denotes.
-/

namespace ShardProxy.Toml

open Read

/-- How deep arrays, inline tables and dotted keys may nest. -/
def depthLimit : Nat := 80

def isBareKey (c : Char) : Bool := c.isAlphanum || c == '_' || c == '-'

def simpleKey : Read String :=
  (do return String.ofList (← span1 isBareKey)) <|> Scalar.basic <|> Scalar.literal

/-- The parts of a dotted key after the first. -/
def keyRest : Nat → Read (List String)
  | 0 => return []
  | fuel + 1 =>
    (do
      blanks
      char '.'
      blanks
      let k ← simpleKey
      return k :: (← keyRest fuel))
    <|> pure []

/-- A key: the path to its table and its last part. -/
def key : Read (List String × String) := do
  let first ← simpleKey
  let parts := first :: (← keyRest (← get).length)
  if depthLimit ≤ parts.length then failure
  return (parts.dropLast, parts.getLastD first)

/-- Blank space, line ends and comments. -/
def space : Nat → Read Unit
  | 0 => pure ()
  | fuel + 1 => do
    blanks
    match ← peek with
    | some '#' =>
      comment
      space fuel
    | some '\n' | some '\r' =>
      newline
      space fuel
    | _ => pure ()

def anySpace : Read Unit := do space (2 * (← get).length + 1)

/-- What follows a value on its line. -/
def lineEnd : Read Unit := do
  blanks
  let _ ← optional comment
  match ← peek with
  | none => pure ()
  | some _ => newline

mutual
/-- A value at some depth. `fuel` bounds the length of what is read. -/
def value (depth : Nat) : Nat → Read Value
  | 0 => failure
  | fuel + 1 => do
    match ← peek with
    | some '"' | some '\'' => return .string (← Scalar.string)
    | some '[' =>
      if depthLimit ≤ depth + 1 then failure
      char '['
      return .array (← items (depth + 1) fuel)
    | some '\x7b' =>
      if depthLimit ≤ depth + 1 then failure
      char '\x7b'
      blanks
      let n ← inlineEntries (depth + 1) .empty true fuel
      return n.toValue
    | some 't' =>
      word "true"
      return .boolean true
    | some 'f' =>
      word "false"
      return .boolean false
    | _ =>
      (do Scalar.date; return .date) <|> (do Scalar.float; return .float)
        <|> (do return .integer (← Scalar.integer))
/-- The items of an array and its closing bracket. -/
def items (depth : Nat) : Nat → Read (List Value)
  | 0 => failure
  | fuel + 1 => do
    anySpace
    match ← peek with
    | some ']' =>
      char ']'
      return []
    | _ =>
      let v ← value depth fuel
      anySpace
      match ← one (fun c => c == ',' || c == ']') with
      | ']' => return [v]
      | _ => return v :: (← items depth fuel)
/-- The entries of an inline table and its closing brace. No comma stands before that. -/
def inlineEntries (depth : Nat) (n : Node) (first : Bool) : Nat → Read Node
  | 0 => failure
  | fuel + 1 => do
    match first, ← peek with
    | true, some '\x7d' =>
      char '\x7d'
      return n
    | _, _ =>
      let (path, k) ← key
      blanks
      char '='
      blanks
      let v ← value depth fuel
      blanks
      match n.addKeyValue path k v with
      | none => failure
      | some n =>
        match ← one (fun c => c == ',' || c == '\x7d') with
        | ',' =>
          blanks
          inlineEntries depth n false fuel
        | _ => return n
end

/-- A document as far as it is read: all tables but the current one, and that one with its path. -/
structure Reading where
  root : Node := .empty
  current : Node := .empty
  path : List String := []
  isElement : Bool := false

namespace Reading

/-- Puts the current table in its place. -/
def finish (r : Reading) : Option Node :=
  match r.path.getLast? with
  | none => some r.current
  | some k =>
    Node.descend false (fun parent =>
      match r.isElement, parent.get? k with
      | true, some (.tables ts) => some (parent.put k (.tables (r.current :: ts)))
      | false, none => some (parent.put k r.current)
      | _, _ => none) r.path.dropLast r.root

/-- The header of a table. It may turn an implicit table into a defined one. -/
def openTable (r : Reading) (path : List String) (k : String) : Option Reading := do
  let root ← r.finish
  let existing := fun (parent : Node) =>
    match parent.get? k with
    | none => some .empty
    | some (.table true false es) => some (.table false false es)
    | some _ => none
  let current ← seek existing path root
  let root ← Node.descend false (fun parent => some (parent.remove k)) path root
  return { root, current, path := path ++ [k] }
where
  /-- What `f` finds in the table at a path. -/
  seek (f : Node → Option Node) : List String → Node → Option Node
    | [], n => f n
    | key :: path, n =>
      match n.get? key with
      | none => seek f path (.table true false [])
      | some (.tables (last :: _)) => seek f path last
      | some (.table implicit dotted es) => seek f path (.table implicit dotted es)
      | some _ => none

/-- The header of one more element of an array of tables. -/
def openElement (r : Reading) (path : List String) (k : String) : Option Reading := do
  let root ← r.finish
  let root ← Node.descend false (fun parent =>
    match parent.get? k with
    | none => some (parent.put k (.tables []))
    | some (.tables _) => some parent
    | some _ => none) path root
  return { root, path := path ++ [k], isElement := true }

end Reading

def header : Read (List String × String) := do
  blanks
  let k ← key
  blanks
  char ']'
  return k

/-- One line of a document that is neither blank nor a comment. -/
def line (r : Reading) : Read Reading := do
  let next : Option Reading ←
    (do
      word "[["
      let (path, k) ← header
      char ']'
      return r.openElement path k)
    <|> (do
      char '['
      let (path, k) ← header
      return r.openTable path k)
    <|> (do
      let (path, k) ← key
      blanks
      char '='
      blanks
      let v ← value 0 ((← get).length + 1)
      return (r.current.addKeyValue path k v).map fun current => { r with current })
  lineEnd
  match next with
  | some r => return r
  | none => failure

def lines (r : Reading) : Nat → Read Reading
  | 0 => failure
  | fuel + 1 => do
    anySpace
    match ← peek with
    | none => return r
    | some _ =>
      let r ← line r
      lines r fuel

/-- The entries of the table that a text denotes. A byte order mark may stand in front. -/
def parse? (text : String) : Option (List (String × Value)) :=
  let cs := text.toList
  let cs := if cs.head? == some (Char.ofNat 0xFEFF) then cs.drop 1 else cs
  match (lines {} (cs.length + 1)).run cs with
  | some (r, []) => r.finish.map fun root => Node.entryValues root.entries
  | _ => none

end ShardProxy.Toml
