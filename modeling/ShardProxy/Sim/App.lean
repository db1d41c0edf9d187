import ShardProxy.Cli.Execution
import ShardProxy.Sim.Control
import ShardProxy.Sim.Directory

/-!
# Running a program in memory

A proxy is brought up by enabling all its groups at once; servants that cannot be reached keep
trying. Then it serves on an address that can be bound. A program is carried out on a directory in
memory; where it serves, it is interrupted as soon as it does.
-/

namespace ShardProxy.Sim

/-- Starts the servants of a proxy. -/
def bringUp (net : Network) (hosts : List Host) (p : Proxy) : World :=
  (World.setUp net hosts p fun _ => false).enable (List.range p.members.length)

/-- Listens for clients. -/
def World.serve (w : World) (s : Config.Server) : Except Failure World :=
  match Net.Address.parse? s.listenAddr with
  | none => .error .address
  | some a => do
    w.net.bind a
    return w.listen s.maxConnections

/-- What a program leaves behind. -/
structure Outcome where
  exitCode : UInt8
  output : String := ""
  errors : String := ""
  directory : Directory

open Cli (Program) in
/-- Carries a program out. -/
def perform (net : Network) (d : Directory) : Program → Outcome
  | .done exitCode => { exitCode, directory := d }
  | .print text next =>
    let o := perform net d next
    { o with output := text ++ o.output }
  | .complain text next =>
    let o := perform net d next
    { o with errors := text ++ o.errors }
  | .read path next => perform net d (next (d.read path))
  | .write path content next =>
    match d.write path content with
    | .ok d => perform net d (next (.ok ()))
    | .error reason => perform net d (next (.error reason))
  | .touch path next =>
    match d.touch path with
    | .ok d => perform net d (next (.ok ()))
    | .error reason => perform net d (next (.error reason))
  | .serve p s next => perform net d (next (((bringUp net [] p).serve s).map fun _ => ()))

end ShardProxy.Sim
