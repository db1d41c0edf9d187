import ShardProxy.Hash.Md5
import ShardProxy.Routing.Slot

/-!
# The consistent-hash ring

Each group places points on a ring of 32-bit positions, four to every digest of its name and a
counter, in proportion to its weight. A hash belongs to the first point at or after it. Points are
counted with checked numbers of 64 bits: where one does not fit the program ends, and there is no
ring.

* `pointCount` — how many points a group of some weight has;
* `build` — the ring, ascending, points of one position in the order they were made;
* `lookup` — the first point at or after a hash, found by halving.
-/

namespace ShardProxy.Routing

/-- What routing needs to know of a shard group. -/
structure Shard where
  name : String
  weight : UInt32
  deriving DecidableEq, Repr

namespace Ring

/-- The points that one digest yields. -/
def pointsPerDigest : Nat := 4

/-- The digests of a group when all weights are equal. -/
def digestsPerGroup : Nat := 40

/-- A number of 64 bits, or nothing where it outgrows them. -/
def fit64 (n : Nat) : Option Nat := if n < UInt64.size then some n else none

/-- Ring points of a group; the share of its weight is rounded down to whole digests. -/
def pointCount (weight : UInt32) (total groupCount : Nat) : Option Nat :=
  if total = 0 then some 0
  else do
    let product ← fit64 (weight.toNat * digestsPerGroup * groupCount)
    fit64 (product / total * pointsPerDigest)

def totalWeight (shards : List Shard) : Option Nat :=
  shards.foldlM (fun t s => fit64 (t + s.weight.toNat)) 0

/-- The points of one digest of a group. -/
def digestPoints (digest : Bytes → Hash.Md5.Digest) (s : Shard) (g : GroupId) (i : Nat) :
    List Slot :=
  (digest (Text.utf8 (s.name ++ "-" ++ toString i))).words.map fun w => ⟨some g, w⟩

/-- The points of a group, as many as are counted for it. -/
def groupPoints (digest : Bytes → Hash.Md5.Digest) (count : Nat) (s : Shard) (g : GroupId) :
    List Slot :=
  (List.range (count / pointsPerDigest)).flatMap (digestPoints digest s g)

/-- The points of all groups, in the order they are made. -/
def points (digest : Bytes → Hash.Md5.Digest) (shards : List Shard) : Option (List Slot) := do
  let total ← totalWeight shards
  let counts ← shards.mapM fun s => pointCount s.weight total shards.length
  return ((shards.zip counts).mapIdx fun g (s, count) => groupPoints digest count s g).flatten

/-- Points in ascending order. -/
def arrange (points : List Slot) : Slots :=
  (points.mergeSort fun a b => a.position ≤ b.position).toArray

/-- The ring under any digest. -/
def buildWith (digest : Bytes → Hash.Md5.Digest) (shards : List Shard) : Option Slots :=
  (points digest shards).map arrange

def build (shards : List Shard) : Option Slots := buildWith Hash.Md5.digest shards

/-- The first index from `lo` to `hi` whose position is not below `h`, or `hi`. -/
def search (ring : Slots) (h : UInt32) (lo hi : Nat) : Nat :=
  if lo < hi then
    let mid := (lo + hi) / 2
    match ring[mid]? with
    | none => lo
    | some s => if s.position < h then search ring h (mid + 1) hi else search ring h lo mid
  else lo
termination_by hi - lo
decreasing_by all_goals omega

/-- The index of the first point at or after `h`; past the last point it is the first one. -/
def lookup (ring : Slots) (h : UInt32) : Nat :=
  let i := search ring h 0 ring.size
  if i = ring.size then 0 else i

end Ring

end ShardProxy.Routing
