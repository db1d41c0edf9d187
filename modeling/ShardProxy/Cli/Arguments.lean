/-!
# Command lines

A command line names one command and gives its options, each at most once. The value of an option
stands in the same word, after the letter of a short one or after an equals sign, or it is the next
word, which then does not begin with a dash. The first thing that is wrong decides, and so does the
first call for help.

* `Command` — what can be asked for;
* `Request.parse` — what a command line asks for.
-/

namespace ShardProxy.Cli

inductive Command where
  /-- Serve with a configuration file. -/
  | run (config : String)
  /-- Write an example configuration for a mode. -/
  | config (mode output : String)
  /-- Check a configuration file. -/
  | validate (config : String)
  | version
  deriving DecidableEq, Repr

/-- What a command line asks for. -/
inductive Request where
  | command (c : Command)
  | help
  | versionNumber
  | misuse
  deriving DecidableEq, Repr

/-! ## Words -/

/-- A word of a command line, by the dashes it begins with. -/
inductive Word where
  | plain
  /-- Two dashes alone: no options follow. -/
  | terminator
  | long (name : String) (value : Option String)
  | short (letter : Char) (more : List Char)
  deriving DecidableEq, Repr

/-- One dash alone is a plain word. -/
def Word.of (s : String) : Word :=
  match s.toList with
  | ['-', '-'] => .terminator
  | '-' :: '-' :: cs =>
    match cs.dropWhile (· != '=') with
    | [] => .long (String.ofList cs) none
    | _ :: value => .long (String.ofList (cs.takeWhile (· != '='))) (some (String.ofList value))
  | '-' :: c :: cs => .short c cs
  | _ => .plain

/-- The value that is attached to a short option. -/
def attached : List Char → Option String
  | [] => none
  | '=' :: cs => some (String.ofList cs)
  | cs => some (String.ofList cs)

/-! ## Options -/

/-- An option of a command. -/
structure Param where
  long : String
  short : Char
  /-- Its value is a path, which is never empty. -/
  isPath : Bool := true
  deriving DecidableEq, Repr

inductive Verb where
  | run | config | validate | version
  deriving DecidableEq, Repr

namespace Verb

def ofName? : String → Option Verb
  | "run" => some run
  | "config" => some config
  | "validate" => some validate
  | "version" => some version
  | _ => none

def params : Verb → List Param
  | run | validate => [⟨"config", 'c', true⟩]
  | config => [⟨"mode", 'm', false⟩, ⟨"output", 'o', true⟩]
  | version => []

end Verb

/-- The values of options by their long names. -/
abbrev Given := List (String × String)

/-- What the options of a command come to. -/
inductive Reading where
  | values (g : Given)
  | help
  | misuse
  deriving DecidableEq, Repr

/-- Takes the value of an option, which is given once and is no empty path. -/
def Given.add? (g : Given) (p : Param) (value : String) : Option Given :=
  if (g.lookup p.long).isSome || p.isPath && value.isEmpty then none
  else some ((p.long, value) :: g)

/-- What a word asks for. -/
inductive Ask where
  /-- An option, with its value if that is attached. -/
  | option (p : Param) (value : Option String)
  | help
  /-- No more options follow. -/
  | last
  | misuse
  deriving DecidableEq, Repr

/-- An option that a command has. -/
def Ask.named (params : List Param) (is : Param → Bool) (value : Option String) : Ask :=
  match params.find? is with
  | some p => .option p value
  | none => .misuse

def Ask.of (params : List Param) (word : String) : Ask :=
  match Word.of word with
  | .plain => .misuse
  | .terminator => .last
  | .long "help" none => .help
  | .short 'h' _ => .help
  | .long name value => .named params (·.long == name) value
  | .short letter more => .named params (·.short == letter) (attached more)

/-- Reads options until the words end. -/
def Reading.read (params : List Param) (g : Given) : List String → Reading
  | [] => .values g
  | word :: rest =>
    match Ask.of params word with
    | .help => .help
    | .misuse => .misuse
    | .last => if rest.isEmpty then .values g else .misuse
    | .option p (some v) =>
      match g.add? p v with
      | some g => read params g rest
      | none => .misuse
    | .option p none =>
      match rest with
      | [] => .misuse
      | v :: rest =>
        if Word.of v != .plain then .misuse
        else match g.add? p v with
          | some g => read params g rest
          | none => .misuse

/-! ## Commands -/

/-- The configuration file that is served when none is named. -/
def defaultConfig : String := "config/cancela.toml"

/-- A command with the values of its options, if those it needs are there. -/
def Verb.command? (v : Verb) (g : Given) : Option Command :=
  match v with
  | .run => some (.run ((g.lookup "config").getD defaultConfig))
  | .config => do return .config (← g.lookup "mode") (← g.lookup "output")
  | .validate => (g.lookup "config").map .validate
  | .version => some .version

def Verb.request (v : Verb) (words : List String) : Request :=
  match Reading.read v.params [] words with
  | .help => .help
  | .misuse => .misuse
  | .values g =>
    match v.command? g with
    | some c => .command c
    | none => .misuse

/-- Help on nothing else than the program or one of its commands. -/
def Request.helpOn : List String → Request
  | [] => .help
  | [name] => if name == "help" || (Verb.ofName? name).isSome then .help else .misuse
  | _ => .misuse

def Request.parse : List String → Request
  | [] => .misuse
  | word :: rest =>
    match Word.of word with
    | .plain =>
      match Verb.ofName? word with
      | some v => v.request rest
      | none => if word == "help" then Request.helpOn rest else .misuse
    | .long "help" none => .help
    | .short 'h' _ => .help
    | .long "version" none => .versionNumber
    | .short 'V' _ => .versionNumber
    | _ => .misuse

end ShardProxy.Cli
