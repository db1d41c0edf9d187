import ShardProxy.Text.Bytes

/-!
# Scripted streams

A stream whose other side is known in advance: what each read yields, how much one write accepts
and after how many bytes writes fail. It records what was written, apart for each item read.
-/

namespace ShardProxy.Net

inductive ScriptItem where
  | data (bytes : Bytes)
  | fail (text : String)
  deriving DecidableEq, Repr

/-- `log` holds the bytes written before each item that was read to its end, and `current` those
written since. -/
structure Script where
  reads : List ScriptItem
  writeLimit : Option Nat
  failAfter : Option Nat
  accepted : Nat := 0
  log : List Bytes := []
  current : Bytes := []
  deriving DecidableEq, Repr

namespace Script

/-- What a read finds. -/
inductive Found where
  | bytes (b : Bytes)
  | ended
  | failed (text : String)
  deriving DecidableEq, Repr

/-- Reads at most `room` bytes. -/
def read (s : Script) (room : Nat) : Found × Script :=
  match s.reads with
  | [] => (.ended, s)
  | .fail text :: rest => (.failed text, { s with reads := rest })
  | .data b :: rest =>
    if room < b.length then (.bytes (b.take room), { s with reads := .data (b.drop room) :: rest })
    else
      let s := { s with reads := rest, log := s.log ++ [s.current], current := [] }
      (if b.isEmpty then .ended else .bytes b, s)

/-- No more reads than this find something: each takes an item, or a byte of one. -/
def readsLeft (s : Script) : Nat :=
  s.reads.foldr (fun r n => match r with
    | .data b => n + b.length + 1
    | .fail _ => n + 1) 1

/-- The bytes that may still be accepted. -/
def allowance (s : Script) : Option Nat := s.failAfter.map (· - s.accepted)

/-- Writes everything, as long as the stream accepts it, and reports why it did not. -/
def write (s : Script) (b : Bytes) : Option String × Script :=
  let stalled := s.writeLimit == some 0
  let fits := if stalled then 0 else min b.length (s.allowance.getD b.length)
  let report :=
    if fits == b.length then none
    else if stalled && s.allowance != some 0 then some "failed to write whole buffer"
    else some "write failed"
  (report, { s with accepted := s.accepted + fits, current := s.current ++ b.take fits })

/-- Everything written, by item. -/
def out (s : Script) : List Bytes := s.log ++ [s.current]

end Script

end ShardProxy.Net
