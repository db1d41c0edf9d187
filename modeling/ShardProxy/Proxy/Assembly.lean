import ShardProxy.Proxy.Basic

/-!
# Putting a proxy together

Groups are planned with their hosts in the order in which they were given. Servants are numbered
through all groups in that order; within a group masters and replicas are two lists.
-/

namespace ShardProxy

structure GroupPlan where
  shard : Routing.Shard
  policy : Group.Policy
  hosts : List Backend.Profile
  deriving DecidableEq, Repr

namespace GroupPlan

/-- The members of each group; the first servant has number `n`. -/
def members (n : ServantId) : List GroupPlan → List Group.Members
  | [] => []
  | g :: gs =>
    g.hosts.zipIdx.foldl (fun m (h, i) => m.add h.master (n + i)) { policy := g.policy }
      :: members (n + g.hosts.length) gs

/-- The hosts of a group, masters first. -/
def ranked (g : GroupPlan) : List Backend.Profile :=
  g.hosts.filter (·.master) ++ g.hosts.filter (!·.master)

def servants (gs : List GroupPlan) : List Backend.Servant :=
  (gs.flatMap (·.hosts)).map Backend.Servant.ofProfile

end GroupPlan

/-- A proxy whose servants are not started. -/
def Proxy.assemble (plans : List GroupPlan) (table : Routing.Table) : Proxy where
  table
  members := GroupPlan.members 0 plans
  servants := (GroupPlan.servants plans).toArray

end ShardProxy
