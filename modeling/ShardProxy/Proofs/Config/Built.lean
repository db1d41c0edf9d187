import ShardProxy.Proofs.Config.Checked
import ShardProxy.Proofs.Routing.Overrides
import ShardProxy.Proofs.Text.Unbroken

/-!
# What a configuration is built into

A configuration that passes its checks gives a proxy with its groups in their order, each with the
servants of its hosts, and with an override for nothing but its key mappings.

* `Config.proxy_eq_ok` — the plans and the table that a proxy is put together from;
* `Config.grounded_routingTable` — where the overrides come from;
* `GroupPlan.exists_member` — a group with hosts has servants.
-/

namespace ShardProxy

/-! ## Overrides -/

namespace Routing

/-- The groups of a table are known, and so are the keys and the groups of its overrides. -/
structure Table.Grounded (groups : List Shard) (known : Bytes → Prop) (t : Table) : Prop where
  shards : t.shards = groups
  entries : ∀ e ∈ t.overrides.entries, e.2 < groups.length ∧ known e.1

namespace Table.Grounded

variable {groups : List Shard} {known known' : Bytes → Prop} {t : Table}

theorem mono (h : t.Grounded groups known) (hmore : ∀ key, known key → known' key) :
    t.Grounded groups known' :=
  ⟨h.shards, fun e he => (h.entries e he).imp_right (hmore e.1)⟩

theorem lt_of_named {name : Bytes} {g : GroupId} (h : t.Grounded groups known)
    (hg : t.groupNamed? name = some g) : g < groups.length := by
  obtain ⟨hlt, _⟩ := List.findIdx?_eq_some_iff_getElem.mp hg
  rwa [h.shards] at hlt

theorem addOverride {key : Bytes} {g : GroupId} (h : t.Grounded groups known)
    (hg : g < groups.length) (hkey : known key) : (t.addOverride key g).Grounded groups known := by
  refine ⟨h.shards, fun e he => ?_⟩
  rcases Overrides.mem_place he with rfl | he
  · exact ⟨hg, hkey⟩
  · exact h.entries e he

theorem removeOverride {key : Bytes} (h : t.Grounded groups known) :
    ((t.removeOverride key).getD t).Grounded groups known := by
  rw [Table.removeOverride_getD]
  exact ⟨h.shards, fun e he => h.entries e (List.mem_filter.mp he).1⟩

end Table.Grounded

end Routing

/-! ## The servants of groups -/

namespace Group.Members

theorem mem_all_add {m : Members} {master : Bool} {s id : ServantId} :
    id ∈ (m.add master s).all ↔ id ∈ m.all ∨ id = s := by
  unfold add all
  cases master with
  | true =>
      show id ∈ (m.masters ++ [s]) ++ m.replicas ↔ _
      rw [List.mem_append, List.mem_append, List.mem_append, List.mem_singleton, or_right_comm]
  | false =>
      show id ∈ m.masters ++ (m.replicas ++ [s]) ↔ _
      rw [← List.append_assoc, List.mem_append (s := _ ++ _), List.mem_singleton]

theorem mem_all_foldl {hosts : List (Backend.Profile × Nat)} {m : Members} {n id : ServantId} :
    id ∈ (hosts.foldl (fun m h => m.add h.1.master (n + h.2)) m).all ↔
      id ∈ m.all ∨ ∃ h ∈ hosts, id = n + h.2 := by
  induction hosts generalizing m with
  | nil => simp
  | cons h hosts ih =>
      rw [List.foldl_cons, ih, mem_all_add, or_assoc]
      simp only [List.mem_cons, exists_eq_or_imp]

end Group.Members

namespace GroupPlan

/-- A group with hosts has a servant, which is one of those that are made. -/
theorem exists_member {gs : List GroupPlan} {i : Nat} {g : GroupPlan} (n : ServantId)
    (h : gs[i]? = some g) (hhosts : g.hosts ≠ []) :
    ∃ m, (members n gs)[i]? = some m ∧ ∃ id ∈ m.all, id < n + (gs.flatMap (·.hosts)).length := by
  induction gs generalizing n i with
  | nil => cases h
  | cons first rest ih =>
      rw [List.flatMap_cons, List.length_append]
      cases i with
      | zero =>
          obtain rfl : first = g := Option.some.inj h
          refine ⟨_, rfl, n, ?_, ?_⟩
          · -- the first of its hosts has the first number
            obtain ⟨host, others, hcons⟩ := List.exists_cons_of_ne_nil hhosts
            refine Group.Members.mem_all_foldl.mpr (.inr ⟨(host, 0), ?_, rfl⟩)
            rw [hcons]
            exact List.mem_cons_self
          · have hpos := List.length_pos_iff.mpr hhosts
            exact Nat.lt_add_of_pos_right (Nat.add_pos_left hpos _)
      | succ i =>
          obtain ⟨m, hm, id, hid, hlt⟩ := ih (n + first.hosts.length) h
          exact ⟨m, hm, id, hid, Nat.add_assoc n _ _ ▸ hlt⟩

end GroupPlan

/-! ## From a configuration -/

namespace Config

theorem plan_eq_ok {c : Config} {g : Group} {plan : GroupPlan} (h : g.plan c = .ok plan) :
    plan.shard = g.shard ∧
      List.Forall₂ (fun h p => Host.profile c h = .ok p) g.hosts plan.hosts := by
  unfold Group.plan at h
  split at h
  · cases h
  · obtain ⟨hosts, hhosts, h⟩ := bind_eq_ok.mp h
    cases h
    exact ⟨rfl, forall₂_of_mapM hhosts⟩

/-- Addresses are read, and written anew. -/
theorem unbroken_of_profile {c : Config} {h : Host} {p : Backend.Profile}
    (hprofile : h.profile c = .ok p) : Text.Unbroken p.address := by
  unfold Host.profile at hprofile
  split at hprofile
  · cases hprofile
  · cases hprofile
    exact Text.unbroken_renderAddress _

/-- The key of a mapping. -/
def maps (c : Config) (key : Bytes) : Prop := ∃ m ∈ c.keyMappings, key = Text.utf8 m.key

theorem grounded_addKeyMapping {c : Config} {shards : List Routing.Shard} {t t' : Routing.Table}
    {m : KeyMapping} (hm : m ∈ c.keyMappings) (h : t.Grounded shards c.maps)
    (hadd : addKeyMapping t m = .ok t') : t'.Grounded shards c.maps := by
  unfold addKeyMapping at hadd
  split at hadd
  · cases hadd
  · rename_i g hg
    cases hadd
    exact h.addOverride (h.lt_of_named hg) ⟨m, hm, rfl⟩

/-- The table has the groups in their order, and overrides for the key mappings. -/
theorem grounded_routingTable {c : Config} {t : Routing.Table} (h : c.routingTable = .ok t) :
    t.Grounded (c.groups.map (·.shard)) c.maps := by
  unfold routingTable at h
  split at h
  · cases h
  · dsimp only at h
    -- the table of either mode begins without overrides
    split at h
    · obtain ⟨empty, hempty, h⟩ := bind_eq_ok.mp h
      obtain ⟨owners, _, rfl⟩ := map_eq_ok.mp (mapError_eq_ok.mp hempty)
      refine of_foldlM (fun t m hm t' ht hadd => grounded_addKeyMapping hm ht hadd) ?_ h
      exact ⟨rfl, fun e he => absurd he List.not_mem_nil⟩
    · split at h
      · rename_i table htable
        obtain ⟨slots, -, rfl⟩ := Option.map_eq_some_iff.mp htable
        refine of_foldlM (fun t m hm t' ht hadd => grounded_addKeyMapping hm ht hadd) ?_ h
        exact ⟨rfl, fun e he => absurd he List.not_mem_nil⟩
      · cases h

/-- The proxy of a configuration is put together from a plan for each group and a table. -/
theorem proxy_eq_ok {c : Config} {p : Proxy} (h : c.proxy = .ok p) :
    c.check = .ok () ∧ ∃ plans table,
      List.Forall₂ (fun g plan => g.plan c = .ok plan) c.groups plans ∧
      c.routingTable = .ok table ∧ p.table = table ∧ p.members = GroupPlan.members 0 plans ∧
      p.servants = (GroupPlan.servants plans).toArray := by
  obtain ⟨_, hcheck, h⟩ := bind_eq_ok.mp h
  obtain ⟨plans, hplans, h⟩ := bind_eq_ok.mp h
  obtain ⟨table, htable, h⟩ := bind_eq_ok.mp h
  cases h
  exact ⟨mapError_eq_ok.mp hcheck, plans, table, forall₂_of_mapM hplans, htable, rfl, rfl, rfl⟩

end Config

end ShardProxy
