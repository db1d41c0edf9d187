import ShardProxy.Net.Address
import ShardProxy.Wire.Scan

/-!
# Failures

What can go wrong, by cause. Clients see only fixed replies; the message of a failure is for
operators.

* `Config.Failure` — why a configuration cannot be used;
* `Failure` — why a request, a connection or a start failed;
* `Failure.recoverable`, `Failure.severity` — how grave it is.
-/

namespace ShardProxy

namespace Config

inductive Failure where
  | io (text : String)
  | parse (text : String)
  | serialize (text : String)
  | invalid (text : String)
  deriving DecidableEq, Repr

def Failure.message : Failure → String
  | io text => "IO error: " ++ text
  | parse text => "Parse error: " ++ text
  | serialize text => "Serialize error: " ++ text
  | invalid text => "Validation error: " ++ text

end Config

inductive Severity where
  | critical | error | warning | info
  deriving DecidableEq, Repr

def Severity.label : Severity → String
  | critical => "CRITICAL"
  | error => "ERROR"
  | warning => "WARNING"
  | info => "INFO"

inductive Failure where
  | network (text : String)
  | config (why : Config.Failure)
  | protocol (text : String)
  | backend (text : String)
  | routing (text : String)
  | auth (text : String)
  | address
  | timeout (operation : String)
  | internal (text : String)
  /-- A number outgrew its type. Nobody is told of this as an error: the program ends. -/
  | overflow
  deriving DecidableEq, Repr

namespace Failure

def message : Failure → String
  | network text => "Network error: " ++ text
  | config why => "Configuration error: " ++ why.message
  | protocol text => "Protocol error: " ++ text
  | backend text => "Backend error: " ++ text
  | routing text => "Routing error: " ++ text
  | auth text => "Authentication error: " ++ text
  | address => "Address parsing error: " ++ Net.Address.syntaxMessage
  | timeout operation => "Operation timed out: " ++ operation
  | internal text => "Internal error: " ++ text
  | overflow => "attempt to multiply with overflow"

/-- The other side may come back. -/
def recoverable : Failure → Bool
  | network _ | backend _ | routing _ | timeout _ => true
  | _ => false

def severity : Failure → Severity
  | config _ | internal _ | overflow => .critical
  | network _ | backend _ | routing _ | timeout _ => .warning
  | auth _ => .info
  | protocol _ | address => .error

/-- The backend closed the connection before its reply was complete. -/
def closedByBackend : Failure := .backend "connection closed by backend"

/-- The backend sent bytes that are no reply. -/
def badReply (why : Wire.Defect) : Failure := .protocol ("backend reply: " ++ why.message)

end Failure

end ShardProxy
