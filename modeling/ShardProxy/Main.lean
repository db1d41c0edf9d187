import ShardProxy.Cli.Execution
import ShardProxy.Sim.App

/-!
# The command line

Carries out the program of a command line on this machine. It opens no sockets: where it serves,
the hosts of the configuration are out of reach, and standard input and output are its one client.
-/

namespace ShardProxy.Main

open Cli (Program)
open Sim (World Directory)

/-- Why the system refuses something. -/
def reason : IO.Error → String
  | .noFileOrDirectory _ _ _ => Directory.noSuchFile
  | .inappropriateType _ _ _ => Directory.isAFolder
  | .permissionDenied _ _ _ => Sim.Network.permissionDenied
  | e => toString e

def attempt {α : Type} (act : IO α) : IO (Except String α) :=
  try return .ok (← act) catch e => return .error (reason e)

/-- The name of the only client. -/
def client : String := "standard input"

/-- What the session has written for its client. -/
def takeOutput (w : World) : Bytes × World :=
  match w.client? client with
  | none => ([], w)
  | some c =>
    let (read, w) := w.clientReads client c.outbound.length
    (read.elim [] (·.1), w)

/-- Hands input to the session and its replies to the output, until either ends. -/
partial def serveStreams (input output : IO.FS.Stream) (w : World) : IO Unit := do
  let bytes ← input.read 4096
  if bytes.isEmpty then return
  let (reply, w) := takeOutput (w.clientSends client bytes.toList)
  output.write ⟨reply.toArray⟩
  output.flush
  if (w.client? client).any (·.phase != .over) then serveStreams input output w

def serve (p : Proxy) (s : Config.Server) : IO (Except Failure Unit) := do
  match (Sim.bringUp .loopback [] p).serve s with
  | .error f => return .error f
  | .ok w =>
    if let some w := w.connect client then
      serveStreams (← IO.getStdin) (← IO.getStdout) w
    return .ok ()

def perform : Program → IO UInt32
  | .done exitCode => return exitCode.toUInt32
  | .print text next => do
    (← IO.getStdout).putStr text
    perform next
  | .complain text next => do
    (← IO.getStderr).putStr text
    perform next
  | .read path next => do perform (next ((← attempt (IO.FS.readBinFile path)).map (·.toList)))
  | .write path content next => do
    perform (next (← attempt (IO.FS.writeBinFile path ⟨content.toArray⟩)))
  | .touch path next => do
    perform (next (← attempt (IO.FS.withFile path .append fun _ => return ())))
  | .serve p s next => do perform (next (← serve p s))

end ShardProxy.Main

def main (args : List String) : IO UInt32 := ShardProxy.Main.perform (ShardProxy.Cli.program args)
