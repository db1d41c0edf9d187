import ShardProxy.Cli.Arguments
import ShardProxy.Cli.Report
import ShardProxy.Config.Build

/-!
# What each command does

What a program does with its surroundings, step by step: it prints, reads and writes files, and
serves. A step whose outcome is not known in advance is followed by a function of that outcome. A
program decides everything else itself, so it can be carried out on the machine or in memory.

* `Command.program` — the program of a command;
* `program` — the program of a command line.
-/

namespace ShardProxy.Cli

inductive Program where
  | done (exitCode : UInt8)
  | print (text : String) (next : Program)
  /-- Prints on the error stream. -/
  | complain (text : String) (next : Program)
  | read (path : String) (next : Except String Bytes → Program)
  | write (path : String) (content : Bytes) (next : Except String Unit → Program)
  /-- Opens a file to add to it. -/
  | touch (path : String) (next : Except String Unit → Program)
  /-- Starts the servants of a proxy and serves clients until it is interrupted. -/
  | serve (p : Proxy) (s : Config.Server) (next : Except Failure Unit → Program)

/-- Ends with a report of what failed. -/
def fail (what : String) (why : List String) : Program := .complain (complaint what why) (.done 1)

/-- Opens the log file, if there is one, and goes on. -/
def openLog (c : Config) (next : Program) : Program :=
  match c.logging.file with
  | none => next
  | some path => .touch path fun
    | .ok () => next
    | .error reason => fail ("Failed to open log file " ++ path) [reason]

/-- Serves with the proxy of a configuration. -/
def serve (c : Config) : Program :=
  match c.proxy with
  -- nobody is there to report it
  | .error .overflow => .done 101
  | .error f => fail "Failed to initialize cancela" (causes f)
  | .ok p => .serve p c.server fun
    | .ok () => .done 0
    | .error f => fail "Failed to run cancela" (causes f)

def run (path : String) : Program :=
  .read path fun content =>
    match Config.load content with
    | .error f => fail ("Failed to load config from " ++ Text.quotePath path) [f.message]
    | .ok c => openLog c (serve c)

def generate (mode path : String) : Program :=
  let failed (f : Config.Failure) : Program := fail "Failed to generate config" [f.message]
  .print ("Generating " ++ mode ++ " configuration file: " ++ Text.quotePath path ++ "\n") <|
    match Config.example? mode with
    | .error f => failed f
    | .ok c => .write path (Text.utf8 c.write) fun
      | .error reason => failed (.io reason)
      | .ok () => .print (lines
          ["Configuration file generated successfully!",
            "Edit the file to match your environment and run:",
            "  cancela run --config " ++ Text.quotePath path]) (.done 0)

def validate (path : String) : Program :=
  .print ("Validating configuration file: " ++ Text.quotePath path ++ "\n") <|
    .read path fun content =>
      match Config.load content with
      | .ok c => .print (summary c) (.done 0)
      | .error f =>
        .complain (lines ["✗ Configuration file validation failed:", faultLine f])
          (fail f.message [])

def Command.program : Command → Program
  | .run path => Cli.run path
  | .config mode path => generate mode path
  | .validate path => Cli.validate path
  | .version => .print Cli.version (.done 0)

def Request.program : Request → Program
  | .command c => c.program
  | .help => .print usage (.done 0)
  | .versionNumber => .print (lines ["cancela " ++ Cli.versionNumber]) (.done 0)
  | .misuse => .complain usage (.done 2)

/-- The program of a command line. -/
def program (args : List String) : Program := (Request.parse args).program

end ShardProxy.Cli
