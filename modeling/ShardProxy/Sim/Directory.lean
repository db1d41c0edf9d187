import ShardProxy.Text.Bytes

/-!
# A directory of files

Files by their paths below one directory. A path is followed from there part by part, and folders
are there as far as files lie in them.

* `resolve` — where a path leads;
* `read`, `write`, `touch` — what can be done with the file there, or why not.
-/

namespace ShardProxy.Sim

/-- A path below the directory, part by part. -/
abbrev Place := List String

inductive Entry where
  | file (content : Bytes)
  | folder
  | missing
  deriving DecidableEq, Repr

structure Directory where
  files : List (Place × Bytes) := []
  deriving DecidableEq, Repr

namespace Directory

def noSuchFile : String := "No such file or directory (os error 2)"
def notAFolder : String := "Not a directory (os error 20)"
def isAFolder : String := "Is a directory (os error 21)"

def entry (d : Directory) (p : Place) : Entry :=
  match d.files.lookup p with
  | some content => .file content
  | none => if p.isEmpty || d.files.any (fun f => p.isPrefixOf f.1) then .folder else .missing

/-- Follows parts of a path from a place. Only folders are passed through. -/
def follow (d : Directory) (here : Place) : List String → Except String Place
  | [] => .ok here
  | part :: rest =>
    match d.entry here with
    | .file _ => .error notAFolder
    | .missing => .error noSuchFile
    | .folder =>
      if part == "" || part == "." then d.follow here rest
      else if part != ".." then d.follow (here ++ [part]) rest
      else if here.isEmpty then .error noSuchFile
      else d.follow here.dropLast rest

/-- Where a path leads. Nothing outside of the directory is there. -/
def resolve (d : Directory) (path : String) : Except String Place :=
  if path.isEmpty || path.startsWith "/" then .error noSuchFile else d.follow [] (path.splitOn "/")

def read (d : Directory) (path : String) : Except String Bytes := do
  match d.entry (← d.resolve path) with
  | .file content => .ok content
  | .folder => .error isAFolder
  | .missing => .error noSuchFile

/-- Changes the content of a file, which is empty if it was missing. -/
def change (d : Directory) (path : String) (f : Bytes → Bytes) : Except String Directory := do
  let p ← d.resolve path
  match d.entry p with
  | .folder => .error isAFolder
  | .file content => .ok ⟨(p, f content) :: d.files.filter (·.1 != p)⟩
  | .missing => .ok ⟨(p, f []) :: d.files⟩

def write (d : Directory) (path : String) (content : Bytes) : Except String Directory :=
  d.change path fun _ => content

/-- Opens a file to add to it. -/
def touch (d : Directory) (path : String) : Except String Directory := d.change path id

/-- A directory with these files. -/
def ofFiles (files : List (String × Bytes)) : Directory :=
  ⟨files.map fun f => (f.1.splitOn "/", f.2)⟩

end Directory

end ShardProxy.Sim
