import ShardProxy.Proofs.Backend.Profile
import ShardProxy.Proofs.Config.Built
import ShardProxy.Proofs.Proxy.Mapping
import ShardProxy.Proofs.Routing.Slots
import ShardProxy.Proxy.Dispatch

/-!
# Proxies in service

A proxy begins as its configuration says. Then clients send requests, timers fire, and events reach
its servants, in any order. Some of what it was built from lasts through all of this:

* `Proxy.Reachable` — the states that a proxy comes to;
* `Proxy.lasting` — what only mapping commands change, and what nothing changes;
* `Proxy.Reachable.founded` — the groups are those of the configuration and each has a servant, and
  a key is mapped only if the configuration or a client has asked for it.
-/

namespace ShardProxy

open Wire (Message)

/-! ## The health of groups -/

namespace Health.State

/-- Slots are no part of it. -/
def lasting (s : State) : List Routing.Shard × Routing.Overrides :=
  (s.table.shards, s.table.overrides)

variable (enabled : GroupId → Bool) (s : State) (g : GroupId)

theorem lasting_eject : (s.eject enabled g).2.lasting = s.lasting := by
  unfold eject Routing.Table.eject lasting
  dsimp only
  split
  · rfl
  · rfl

theorem lasting_report : (s.report enabled g).2.lasting = s.lasting := by
  unfold report
  split
  · exact lasting_eject enabled s g
  · rfl

theorem lasting_fire : (s.fire enabled g).2.lasting = s.lasting := by
  unfold fire
  dsimp only
  split
  · rfl
  · split
    · split
      · rfl
      · -- the group is down still, and slots that it got meanwhile are taken from it
        exact lasting_eject enabled s g
    · show (if enabled g = true then s else (s.eject enabled g).2).lasting = s.lasting
      split
      · rfl
      · exact lasting_eject enabled s g
  · split
    · rfl
    · rfl

end Health.State

namespace Proxy

/-! ## What lasts -/

/-- The groups, the key overrides, the servants of each group, and the servants. -/
def lasting (p : Proxy) :
    List Routing.Shard × Routing.Overrides × List (List ServantId) × Array Backend.Servant :=
  (p.table.shards, p.table.overrides, p.members.map (·.all), p.servants)

variable (p : Proxy)

theorem lasting_withHealth {h : Health.State} (hlasting : h.lasting = p.health.lasting) :
    (p.withHealth h).lasting = p.lasting := by
  obtain ⟨hshards, hoverrides⟩ := Prod.mk.inj hlasting
  show (h.table.shards, h.table.overrides, _) = (p.table.shards, p.table.overrides, _)
  rw [hshards, hoverrides]
  rfl

theorem lasting_report (g : GroupId) : (p.report g).2.lasting = p.lasting :=
  p.lasting_withHealth (p.health.lasting_report p.isEnabled g)

theorem lasting_fireHealth (g : GroupId) : (p.fireHealth g).2.lasting = p.lasting :=
  p.lasting_withHealth (p.health.lasting_fire p.isEnabled g)

/-- A pick moves cursors only. -/
theorem lasting_select (g : GroupId) (mutating : Bool) :
    (p.select g mutating).2.lasting = p.lasting := by
  unfold select
  split
  · rfl
  · rename_i m hm
    have hall : (p.members.set g (m.select p.isLive mutating).2).map (·.all) =
        p.members.map (·.all) := by
      obtain ⟨hlt, rfl⟩ := List.getElem?_eq_some_iff.mp hm
      rw [List.map_set]
      show (p.members.map (·.all)).set g (p.members[g]).all = _
      rw [← List.map_set, List.set_getElem_self hlt]
    show (_, _, (p.members.set g (m.select p.isLive mutating).2).map (·.all), _) = p.lasting
    rw [hall]
    rfl

theorem lasting_forward (key request : Bytes) (mutating : Bool) :
    (p.forward key request mutating).2.lasting = p.lasting := by
  unfold forward
  split
  · rfl
  · rename_i g _
    have hselect := p.lasting_select g mutating
    split
    · rename_i hnone
      rw [hnone] at hselect
      exact (lasting_report _ g).trans hselect
    · rename_i hsome
      rw [hsome] at hselect
      exact hselect

theorem lasting_forwardKey (spec : Command.Spec) (request : Message) :
    (p.forwardKey spec request).2.lasting = p.lasting := by
  unfold forwardKey
  split
  · rfl
  · exact p.lasting_forward _ _ _

theorem lasting_forwardAll (mutating : Bool) (subs : List Command.SubRequest) :
    (p.forwardAll mutating subs).2.lasting = p.lasting := by
  induction subs generalizing p with
  | nil => rfl
  | cons sub rest ih => exact (ih _).trans (p.lasting_forward _ _ _)

theorem lasting_scatter (kind : Command.Multi) (spec : Command.Spec) (request : Message) :
    (p.scatter kind spec request).2.lasting = p.lasting := by
  unfold scatter
  split
  · rfl
  · exact p.lasting_forwardKey spec request
  · exact p.lasting_forwardAll _ _

/-! ## States -/

/-- The states that the proxy of a configuration comes to, and the requests of clients so far. -/
inductive Reachable (c : Config) : List Message → Proxy → Prop where
  | initial {p : Proxy} : c.proxy = .ok p → Reachable c [] p
  | request {sent : List Message} {p : Proxy} (m : Message) (authenticated : Bool) :
      Reachable c sent p → Reachable c (sent ++ [m]) (p.begin m authenticated).2.2
  | timer {sent : List Message} {p : Proxy} (g : GroupId) :
      Reachable c sent p → Reachable c sent (p.fireHealth g).2
  | event {sent : List Message} {p : Proxy} {s : ServantId} {v : Backend.Servant}
      (ev : Backend.Event) : Reachable c sent p → p.servants[s]? = some v →
      Reachable c sent { p with servants := p.servants.setIfInBounds s (v.step ev).1 }
  | shutdown {sent : List Message} {p : Proxy} :
      Reachable c sent p → Reachable c sent { p with monitor := p.monitor.shutdown }

/-- A request to map a key, and maybe others, to a group. -/
def Asks (m : Message) (key : Bytes) : Prop :=
  (∃ spec, (m.token? 0).bind Command.lookup = some spec ∧ spec.kind = .addKeyMapping) ∧
    key ∈ m.tokens.drop 2

/-- The groups are those of the configuration, each has a servant, addresses are text without a
carriage return, and a key is mapped only if the configuration or a client has asked for it. -/
structure Founded (c : Config) (sent : List Message) (p : Proxy) : Prop where
  table : p.table.Grounded (c.groups.map (·.shard)) fun key =>
    c.maps key ∨ ∃ m ∈ sent, Asks m key
  staffed : ∀ g < c.groups.length, ∃ ids, (p.members.map (·.all))[g]? = some ids ∧
    ∃ id ∈ ids, id < p.servants.size
  addressed : ∀ v ∈ p.servants, Text.Unbroken v.profile.address

namespace Founded

variable {c : Config} {sent : List Message} {p p' : Proxy}

theorem of_proxy (h : c.proxy = .ok p) : Founded c [] p := by
  obtain ⟨hcheck, plans, table, hplans, htable, htable', hmembers, hservants⟩ :=
    Config.proxy_eq_ok h
  refine ⟨?_, fun g hg => ?_, fun v hv => ?_⟩
  · rw [htable']
    exact (Config.grounded_routingTable htable).mono fun key => .inl
  · -- plans stand in the order of the groups, and a checked group has hosts
    have hg' : g < plans.length := hplans.length_eq ▸ hg
    have hplan : (c.groups[g]).plan c = .ok plans[g] := List.Forall₂.get hplans hg hg'
    obtain ⟨_, hhosts⟩ := Config.plan_eq_ok hplan
    have hsome : (c.groups[g]).hosts ≠ [] :=
      ((Config.checked_of_check hcheck).each _ (List.getElem_mem hg)).hosts
    have hsome' : plans[g].hosts ≠ [] := by
      intro hnone
      rw [hnone, List.forall₂_nil_right_iff] at hhosts
      exact hsome hhosts
    obtain ⟨m, hm, id, hid, hlt⟩ :=
      GroupPlan.exists_member 0 (List.getElem?_eq_getElem hg') hsome'
    refine ⟨m.all, by rw [hmembers, List.getElem?_map, hm]; rfl, id, hid, ?_⟩
    rw [hservants, List.size_toArray, GroupPlan.servants, List.length_map]
    exact Nat.zero_add (List.length _) ▸ hlt
  · rw [hservants, List.mem_toArray] at hv
    obtain ⟨profile, hprofile, rfl⟩ := List.mem_map.mp hv
    obtain ⟨plan, hplan, hprofile⟩ := List.mem_flatMap.mp hprofile
    obtain ⟨g, _, hg⟩ := exists_of_forall₂ hplans hplan
    obtain ⟨host, _, hhost⟩ := exists_of_forall₂ (Config.plan_eq_ok hg).2 hprofile
    exact Config.unbroken_of_profile hhost

/-- Requests that came before lose nothing. -/
theorem more (h : Founded c sent p) (m : Message) : Founded c (sent ++ [m]) p := by
  refine ⟨h.table.mono fun key hkey => ?_, h.staffed, h.addressed⟩
  refine hkey.imp_right ?_
  rintro ⟨m', hm', hasks⟩
  exact ⟨m', List.mem_append_left _ hm', hasks⟩

theorem of_lasting (h : Founded c sent p) (hlasting : p'.lasting = p.lasting) :
    Founded c sent p' := by
  obtain ⟨hshards, hoverrides, hstaff, hservants⟩ : p'.table.shards = p.table.shards ∧
      p'.table.overrides = p.table.overrides ∧
      p'.members.map (·.all) = p.members.map (·.all) ∧ p'.servants = p.servants := by
    simpa only [lasting, Prod.mk.injEq] using hlasting
  refine ⟨⟨hshards.trans h.table.shards, ?_⟩, ?_, ?_⟩
  · rw [hoverrides]
    exact h.table.entries
  · rw [hstaff, hservants]
    exact h.staffed
  · rw [hservants]
    exact h.addressed

/-- A servant goes on serving the same host. -/
theorem event {s : ServantId} {v : Backend.Servant} (ev : Backend.Event) (h : Founded c sent p)
    (hv : p.servants[s]? = some v) :
    Founded c sent { p with servants := p.servants.setIfInBounds s (v.step ev).1 } := by
  refine ⟨h.table, ?_, fun u hu => ?_⟩
  · show ∀ g < c.groups.length, ∃ ids, (p.members.map (·.all))[g]? = some ids ∧
      ∃ id ∈ ids, id < (p.servants.setIfInBounds s (v.step ev).1).size
    rw [Array.size_setIfInBounds]
    exact h.staffed
  · rcases Array.mem_or_eq_of_mem_setIfInBounds hu with hu | rfl
    · exact h.addressed u hu
    · rw [Backend.Servant.profile_step]
      exact h.addressed v (Array.mem_of_getElem? hv)

/-- A mapping command changes the table at most. -/
theorem administer {o : Outcome} (h : Founded c sent p)
    (hchanged : ∀ t, o.changed = some t → t.Grounded (c.groups.map (·.shard)) fun key =>
      c.maps key ∨ ∃ m ∈ sent, Asks m key) : Founded c sent (p.administer o).2 := by
  show Founded c sent (p.afterAdmin o)
  unfold afterAdmin
  split
  · exact h
  · rename_i t ht
    exact ⟨hchanged t ht, h.staffed, h.addressed⟩

end Founded

/-! ## Mapping commands -/

section Commands

variable {groups : List Routing.Shard} {known : Bytes → Prop} {t t' : Routing.Table}
variable {request : Message}

theorem grounded_hashMapping (h : t.Grounded groups known)
    (hchanged : (hashMapping t request).changed = some t') : t'.Grounded groups known := by
  obtain ⟨_, g, i, _, _, hset⟩ := (leads_hashMapping t request).of_changed hchanged
  obtain ⟨_, rfl⟩ := Routing.Table.setSlot_eq_some_iff.mp hset
  exact ⟨h.shards, h.entries⟩

theorem grounded_addKeyMapping (h : t.Grounded groups known)
    (hknown : ∀ key ∈ request.tokens.drop 2, known key)
    (hchanged : (addKeyMapping t request).changed = some t') : t'.Grounded groups known := by
  obtain ⟨_, g, hgroup, rfl⟩ := (leads_addKeyMapping t request).of_changed hchanged
  obtain ⟨name, _, hname⟩ := Option.bind_eq_some_iff.mp hgroup
  have hlt := h.lt_of_named hname
  clear hname hgroup hchanged
  generalize request.tokens.drop 2 = keys at hknown ⊢
  induction keys generalizing t with
  | nil => exact h
  | cons key keys ih =>
      obtain ⟨hkey, hkeys⟩ := List.forall_mem_cons.mp hknown
      exact ih (h.addOverride hlt hkey) hkeys

theorem grounded_delKeyMapping (h : t.Grounded groups known)
    (hchanged : (delKeyMapping t request).changed = some t') : t'.Grounded groups known := by
  obtain ⟨_, rfl⟩ := (leads_delKeyMapping t request).of_changed hchanged
  clear hchanged
  generalize request.tokens.drop 1 = keys
  induction keys generalizing t with
  | nil => exact h
  | cons key keys ih => exact ih h.removeOverride

end Commands

/-! ## Requests -/

theorem Founded.serve {c : Config} {sent : List Message} {p : Proxy} {m : Message}
    {spec : Command.Spec} (h : Founded c sent p)
    (hspec : (m.token? 0).bind Command.lookup = some spec) (authenticated : Bool) :
    Founded c (sent ++ [m]) (p.serve spec m authenticated).2.2 := by
  have hmore := h.more m
  unfold Proxy.serve
  dsimp only
  split
  · exact hmore.of_lasting (p.lasting_forwardKey spec m)
  · exact hmore.of_lasting (p.lasting_scatter .get spec m)
  · exact hmore.of_lasting (p.lasting_scatter .set spec m)
  · exact hmore.of_lasting (p.lasting_scatter .del spec m)
  · exact hmore
  · exact hmore
  · exact hmore
  · exact hmore
  · exact hmore
  · exact hmore.administer fun t ht => grounded_hashMapping hmore.table ht
  · rename_i hkind
    refine hmore.administer fun t ht => grounded_addKeyMapping hmore.table (fun key hkey => ?_) ht
    exact .inr ⟨m, List.mem_append_right _ (List.mem_singleton_self m), ⟨spec, hspec, hkind⟩, hkey⟩
  · exact hmore.administer fun t ht => grounded_delKeyMapping hmore.table ht

theorem Founded.request {c : Config} {sent : List Message} {p : Proxy} (h : Founded c sent p)
    (m : Message) (authenticated : Bool) :
    Founded c (sent ++ [m]) (p.begin m authenticated).2.2 := by
  unfold Proxy.begin
  split
  · exact h.more m
  · rename_i spec hspec
    split
    · exact h.more m
    · exact h.serve hspec authenticated

/-- **What a proxy was built on lasts.** In every state that it comes to its groups are those of its
configuration, each of them has a servant, and every mapped key was asked for. -/
theorem Reachable.founded {c : Config} {sent : List Message} {p : Proxy} (h : Reachable c sent p) :
    Founded c sent p := by
  induction h with
  | initial hbuilt => exact .of_proxy hbuilt
  | request m authenticated _ ih => exact ih.request m authenticated
  | timer g _ ih => exact ih.of_lasting (lasting_fireHealth _ g)
  | event ev _ hv ih => exact ih.event ev hv
  | shutdown _ ih => exact ih.of_lasting rfl

end Proxy

end ShardProxy
