import ShardProxy.Config.Slots
import ShardProxy.Text.Display

/-!
# Reports

What the program tells its operator: the version, the outcome of a check, and why something failed,
from the outermost cause to the innermost.
-/

namespace ShardProxy.Cli

def lines (ls : List String) : String := String.join (ls.map (· ++ "\n"))

def versionNumber : String := "0.1.0"

def about : String := "A sharding proxy for Redis-protocol key-value stores"

/-- The report of `version`. What it was built with and for is left open. -/
def version : String :=
  lines ["cancela v" ++ versionNumber, about, "", "Built with Rust ", "Target: <arch>", "",
    "Features:",
    "  • Direct slot tables and weighted consistent-hash rings",
    "  • MGET/MSET/DEL fan-out across shard groups",
    "  • Master/slave read policies with pooled backend connections",
    "  • Group ejection and restore on backend failure",
    "  • Runtime slot and key remapping"]

def usage : String :=
  lines [about, "", "Usage: cancela <COMMAND>", "", "Commands:",
    "  run       Run the cancela proxy [-c, --config <CONFIG>]",
    "  config    Generate example configuration files -m, --mode <MODE> -o, --output <OUTPUT>",
    "  validate  Validate configuration file -c, --config <CONFIG>",
    "  version   Show version information",
    "  help      Print this message or the help of the given subcommand(s)", "", "Options:",
    "  -h, --help     Print help", "  -V, --version  Print version"]

/-! ## Checked configurations -/

def modeLabel : Routing.Mode → String
  | .direct => "Direct"
  | .ring => "Ring"

/-- The share of a group: its slots where slots are assigned, its weight on a ring. -/
def share (c : Config) (g : Config.Group × Nat) : String :=
  match c.routing.mode, c.slotAssignments with
  | .direct, .ok owners => toString (owners.countP (· == g.2)) ++ " slots"
  | _, _ => "weight " ++ toString g.1.weight.toNat

def hostLine (h : Config.Host) : String :=
  "      " ++ h.name ++ " " ++ h.addr ++ " [" ++ (if h.master then "master" else "slave") ++ "]"

def groupLines (c : Config) (g : Config.Group × Nat) : List String :=
  ("    " ++ g.1.name ++ " (" ++ g.1.policy ++ ", " ++ share c g ++ ")") :: g.1.hosts.map hostLine

/-- A configuration that is valid. -/
def summary (c : Config) : String :=
  lines <|
    ["✓ Configuration file is valid", "  Routing mode: " ++ modeLabel c.routing.mode,
      "  Hash function: " ++ c.routing.hash, "  Listen address: " ++ c.server.listenAddr,
      "  Max connections: " ++ toString c.server.maxConnections,
      "  Password: " ++ (if c.server.password.isSome then "set" else "none"),
      "  Groups: " ++ toString c.groups.length]
    ++ c.groups.zipIdx.flatMap (groupLines c)
    ++ (if c.keyMappings.isEmpty then [] else ["  Key mappings: " ++ toString c.keyMappings.length])

def faultLine : Config.Failure → String
  | .io text => "  File error: " ++ text
  | .parse text => "  Parse error: " ++ text
  | .invalid text => "  Validation error: " ++ text
  | .serialize text => "  Serialization error: " ++ text

/-! ## Failures -/

/-- What lies behind a failure, after its own message. -/
def causes (f : Failure) : List String :=
  f.message :: match f with
    | .network text => [text]
    | .config why => [why.message]
    | .address => [Net.Address.syntaxMessage]
    | _ => []

/-- A cause after its label. Its further lines are indented. -/
def cause (label indent text : String) : String :=
  label ++ ("\n" ++ indent).intercalate (text.splitOn "\n")

/-- Causes are numbered if there are several. -/
def listCauses : List String → List String
  | [text] => [cause "    " "    " text]
  | texts => texts.zipIdx.map fun (text, n) => cause ("    " ++ toString n ++ ": ") "       " text

/-- What failed, and why. -/
def complaint (what : String) (why : List String) : String :=
  lines <| ("Error: " ++ what) :: if why.isEmpty then [] else ["", "Caused by:"] ++ listCauses why

end ShardProxy.Cli
