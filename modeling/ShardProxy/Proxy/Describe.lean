import ShardProxy.Proxy.Basic
import ShardProxy.Text.Display

/-!
# Descriptions

Groups and servants in one line, for diagnosis.
-/

namespace ShardProxy

def Group.Policy.label : Group.Policy → String
  | .masterOnly => "MasterOnly"
  | .readBalance => "ReadBalance"

/-- Named fields after the name of what they describe. -/
def describeFields (name : String) (fields : List (String × String)) : String :=
  name ++ " \x7b " ++ ", ".intercalate (fields.map fun f => f.1 ++ ": " ++ f.2) ++ " \x7d"

def describeList (items : List String) : String := "[" ++ ", ".intercalate items ++ "]"

def Backend.Servant.describe (s : Backend.Servant) : String :=
  describeFields "Servant"
    [("name", Text.quote s.profile.name), ("addr", s.profile.address),
     ("master", toString s.profile.master), ("active", toString s.active)]

/-- A group and its servants. -/
def Proxy.describe (p : Proxy) (g : GroupId) : String :=
  let servants (ids : List ServantId) : String :=
    describeList ((ids.filterMap fun i => p.servants[i]?).map (·.describe))
  match p.members[g]? with
  | none => ""
  | some m =>
    describeFields "Group"
      [("id", toString g), ("name", Text.quote ((p.table.groupName? g).getD "")),
       ("policy", m.policy.label), ("masters", servants m.masters), ("slaves", servants m.replicas)]

end ShardProxy
