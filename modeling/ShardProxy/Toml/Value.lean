/-!
# TOML documents as data

* `Value` — a value; floats and dates are told apart from the others, but what they denote is not
  kept;
* `Node` — a table while it is being read, with what decides whether it may still be extended;
* `Node.descend` — to the table at a path of keys, making tables on the way.
-/

namespace ShardProxy.Toml

inductive Value where
  | string (s : String)
  | integer (n : Int)
  | boolean (b : Bool)
  | float
  | date
  | array (items : List Value)
  | table (entries : List (String × Value))
  deriving Repr, Inhabited

/-- A table under construction. One that only a longer path has named so far is implicit, and one
that a dotted key has made is dotted. `tables` is an array of tables, the last one first. -/
inductive Node where
  | value (v : Value)
  | table (implicit dotted : Bool) (entries : List (String × Node))
  | tables (elements : List Node)
  deriving Inhabited

namespace Node

/-- An explicit table without entries. -/
def empty : Node := .table false false []

def entries : Node → List (String × Node)
  | table _ _ es => es
  | _ => []

def isImplicit : Node → Bool
  | table implicit _ _ => implicit
  | _ => false

def isDotted : Node → Bool
  | table _ dotted _ => dotted
  | _ => false

def get? (n : Node) (key : String) : Option Node := n.entries.lookup key

/-- Puts an entry, in place of an older one or else at the end. -/
def put (n : Node) (key : String) (child : Node) : Node :=
  match n with
  | table implicit dotted es =>
    if es.any (·.1 == key) then
      .table implicit dotted (es.map fun e => if e.1 == key then (key, child) else e)
    else .table implicit dotted (es ++ [(key, child)])
  | n => n

def remove (n : Node) (key : String) : Node :=
  match n with
  | table implicit dotted es => .table implicit dotted (es.filter (·.1 != key))
  | n => n

/-- Changes the table at a path. Missing tables are made on the way. A value has no entries, an
array of tables stands for its last one, and a dotted key does not reach into a table that a
header defined. -/
def descend (dotted : Bool) (f : Node → Option Node) : List String → Node → Option Node
  | [], n => f n
  | key :: path, n =>
    match n.get? key with
    | none => (descend dotted f path (.table true dotted [])).map (n.put key ·)
    | some (.value _) => none
    | some (.tables []) => none
    | some (.tables (last :: before)) =>
      (descend dotted f path last).map fun last => n.put key (.tables (last :: before))
    | some child =>
      if dotted && !child.isImplicit then none
      else (descend dotted f path child).map (n.put key ·)

/-- Adds a value under a key that may be dotted. -/
def addKeyValue (path : List String) (key : String) (v : Value) (n : Node) : Option Node :=
  descend true (fun t =>
    if t.isDotted == path.isEmpty then none
    else if (t.get? key).isSome then none
    else some (t.put key (.value v))) path n

mutual
/-- The finished value. -/
def toValue : Node → Value
  | value v => v
  | table _ _ es => .table (entryValues es)
  | tables ts => .array (toValues ts).reverse
def toValues : List Node → List Value
  | [] => []
  | n :: ns => n.toValue :: toValues ns
def entryValues : List (String × Node) → List (String × Value)
  | [] => []
  | (k, n) :: es => (k, n.toValue) :: entryValues es
end

end Node

end ShardProxy.Toml
