/-!
# Receive windows

The memory that reads fill. It bounds how much one read takes: the part behind the buffered bytes.
When that part is used up, memory in front of them is taken back, if it is larger than what is
buffered, and else the window doubles.
-/

namespace ShardProxy.Net

/-- `start` bytes were consumed in front of the buffered ones; `limit` bytes from there on may be
filled. -/
structure Window where
  size : Nat
  start : Nat
  limit : Nat
  deriving DecidableEq, Repr

namespace Window

def ofSize (size : Nat) : Window := ⟨size, 0, size⟩

/-- The room that a full window is given. -/
def increment : Nat := 64

/-- Makes room behind `buffered` bytes, if there is none. -/
def makeRoom (w : Window) (buffered : Nat) : Window :=
  let need := buffered + increment
  if buffered < w.limit then w
  else if need + w.start ≤ w.size then { w with limit := need }
  else if need ≤ w.size ∧ buffered ≤ w.start then .ofSize w.size
  else
    let size := max (2 * w.size) (need + w.start)
    ⟨size, w.start, size - w.start⟩

/-- The most that the next read takes. -/
def room (w : Window) (buffered : Nat) : Nat := (w.makeRoom buffered).limit - buffered

def consume (w : Window) (n : Nat) : Window := { w with start := w.start + n, limit := w.limit - n }

end Window

end ShardProxy.Net
