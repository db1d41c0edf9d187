import ShardProxy.Proofs.Config.Folding
import ShardProxy.Proofs.Proxy.Framing
import ShardProxy.Proofs.Proxy.Restoring

/-!
# Mappings that clients ask for

Clients map slots and keys while the proxy serves. Each of their requests comes to some edits of
the table by hand, and what the proxy then says of its mappings can be folded back into the
configuration that it was started with. Keys come as bytes of any content, and the configuration
has texts that are not empty: the empty key is refused there, and a key that is no text is written
as another.

* `Command.Kind.isMapping`, `Proxy.Incident.isMapping` — what maps slots and keys;
* `Proxy.remapped_begin` — a request as edits of the table;
* `Proxy.mappings_folded` — when the configuration passes its checks with the mappings folded back,
  and where each key leads then.
-/

namespace ShardProxy

open Routing
open Text (utf8)
open Wire (Message)

def Command.Kind.isMapping : Command.Kind → Bool
  | hashMapping | addKeyMapping | delKeyMapping => true
  | _ => false

namespace Proxy

variable {t : Table} {request : Message} {p : Proxy}

/-! ## Mapping commands -/

/-- The table after a mapping command. -/
def Outcome.table (o : Outcome) (t : Table) : Table := o.changed.getD t

@[simp] theorem table_afterAdmin (p : Proxy) (o : Outcome) :
    (p.afterAdmin o).table = o.table p.table := by
  unfold afterAdmin Outcome.table
  split
  · rename_i hnone
    rw [hnone]
    rfl
  · rename_i t ht
    rw [ht]
    rfl

theorem groupToken?_lt {i : Nat} {g : GroupId} (h : groupToken? t request i = some g) :
    g < t.shards.length := by
  obtain ⟨name, -, hname⟩ := Option.bind_eq_some_iff.mp h
  exact (List.findIdx?_eq_some_iff_getElem.mp hname).1

/-- A command that is refused makes no edit. -/
theorem Outcome.Leads.remapped {o : Outcome} {next : Table → Prop} (h : o.Leads next)
    (hnext : ∀ t', next t' → t.Remapped t') : t.Remapped (o.table t) := by
  cases h with
  | accepted ht' => exact hnext _ ht'
  | refused => exact .refl t

theorem remapped_hashMapping (t : Table) (request : Message) :
    t.Remapped ((hashMapping t request).table t) := by
  refine (leads_hashMapping t request).remapped fun t' ⟨_, g, i, hgroup, _, hset⟩ => ?_
  refine ⟨[.setSlot i g], List.forall_mem_singleton.mpr (groupToken?_lt hgroup), ?_⟩
  show t' = (t.setSlot i g).getD t
  rw [hset]
  rfl

theorem remapped_addKeyMapping (t : Table) (request : Message) :
    t.Remapped ((addKeyMapping t request).table t) := by
  refine (leads_addKeyMapping t request).remapped fun t' ⟨_, g, hgroup, ht'⟩ => ?_
  rw [ht']
  exact .foldl (.addOverride · g) (request.tokens.drop 2) fun _ _ => groupToken?_lt hgroup

theorem remapped_delKeyMapping (t : Table) (request : Message) :
    t.Remapped ((delKeyMapping t request).table t) := by
  refine (leads_delKeyMapping t request).remapped fun t' ⟨_, ht'⟩ => ?_
  rw [ht']
  exact .foldl .removeOverride (request.tokens.drop 1) fun _ _ => trivial

theorem remapped_administer {o : Outcome} (h : p.table.Remapped (o.table p.table)) :
    p.table.Remapped (p.administer o).2.table := by
  show p.table.Remapped (p.afterAdmin o).table
  rw [table_afterAdmin]
  exact h

/-- A request that maps is some edits by hand, or none if it is refused. -/
theorem remapped_begin
    (hmaps : ((request.token? 0).bind Command.lookup).any (·.kind.isMapping) = true)
    (p : Proxy) (authenticated : Bool) :
    p.table.Remapped (p.begin request authenticated).2.2.table := by
  obtain ⟨spec, hspec, hkind⟩ := (Option.any_eq_true _ _).mp hmaps
  unfold Proxy.begin
  rw [hspec]
  dsimp only
  split
  · exact .refl p.table
  · unfold serve
    cases hcase : spec.kind with
    | hashMapping => exact remapped_administer (remapped_hashMapping p.table request)
    | addKeyMapping => exact remapped_administer (remapped_addKeyMapping p.table request)
    | delKeyMapping => exact remapped_administer (remapped_delKeyMapping p.table request)
    | key | multiGet | multiSet | multiDel | ping | auth | showCommands | showMapping | poolInfo =>
        rw [hcase] at hkind
        cases hkind

/-! ## Runs -/

/-- A request that maps. Servants may go up or down besides. -/
def Incident.isMapping : Incident → Bool
  | .request m _ => ((m.token? 0).bind Command.lookup).any (·.kind.isMapping)
  | .servants _ => true
  | .report _ | .timer _ => false

theorem live_after {c : Config} {x : Incident} (h : c.Live p.table) (hx : x.isMapping = true) :
    c.Live (p.after x).table := by
  cases x with
  | request m authenticated => exact h.remapped (remapped_begin hx p authenticated)
  | servants now => exact h
  | report | timer => cases hx

theorem live_afterAll {c : Config} {xs : List Incident} (h : c.Live p.table)
    (hxs : ∀ x ∈ xs, x.isMapping = true) : c.Live (p.afterAll xs).table := by
  induction xs generalizing p with
  | nil => exact h
  | cons x xs ih =>
      obtain ⟨hx, hxs⟩ := List.forall_mem_cons.mp hxs
      exact ih (live_after h hx) hxs

/-- **Mappings can be folded back as far as the configuration can say them.** A proxy in direct mode
was built, and slots and keys are mapped and unmapped by any requests. With what it then says of its
mappings in place of those of its configuration, the configuration passes all checks if and only if
no mapped key is empty. A table can be built of it, which leads each key to the group of the last
mapped key that reads as it, or else to the owner of its slot. Where every mapped key is a text,
this is the group to which the proxy leads the key now. -/
theorem mappings_folded {c : Config} (hbuilt : c.proxy = .ok p) (hmode : c.routing.mode = .direct)
    (xs : List Incident) (hxs : ∀ x ∈ xs, x.isMapping = true) :
    let t := (p.afterAll xs).table
    let folded := c.fold (mappingState t)
    (folded.check = .ok () ↔ ∀ e ∈ t.overrides.entries, e.1 ≠ []) ∧
    ∃ t', folded.routingTable = .ok t' ∧
      (∀ key, t'.resolve key =
        (t.overrides.readAs? key).or ((t.slotIndex? key).bind t.ownerAt?)) ∧
      ((∀ e ∈ t.overrides.entries, ∃ s, utf8 s = e.1) → ∀ key, t'.resolve key = t.resolve key) := by
  intro t folded
  obtain ⟨hcheck, -, table, -, htable, rfl, -⟩ := Config.proxy_eq_ok hbuilt
  have hlive : c.Live t := live_afterAll (.of_routingTable hcheck hmode htable) hxs
  obtain ⟨t', ht', hresolve⟩ := hlive.exists_routingTable_folded hcheck hmode
  refine ⟨hlive.check_folded hcheck hmode, t', ht', hresolve, ?_⟩
  intro htexts key
  rw [hresolve, Overrides.readAs?_of_texts hlive.mapped.sorted htexts, Table.resolve_eq]

/-- A slot changes hands, a key is mapped and another is not any more. -/
def remapped : List Incident :=
  [.request (asked ["HASHMAPPING", "0", "group1"]) true,
    .request (asked ["ADDKEYMAPPING", "group0", "x"]) true,
    .request (asked ["DELKEYMAPPING", "k"]) true]

theorem mappings_folded_twofold :
    ∃ p, Config.twofold.proxy = .ok p ∧ Config.twofold.routing.mode = .direct ∧
      (∀ x ∈ remapped, x.isMapping = true) ∧
      (Config.twofold.fold (mappingState (p.afterAll remapped).table)).check = .ok () ∧
      ∃ t', (Config.twofold.fold (mappingState (p.afterAll remapped).table)).routingTable = .ok t' ∧
        t'.resolve (utf8 "x") = some 0 ∧ t'.resolve [] = some 1 := by
  obtain ⟨p, hbuilt, hentries, hx, hempty⟩ : ∃ p, Config.twofold.proxy = .ok p ∧
      (p.afterAll remapped).table.overrides.entries = [(utf8 "x", 0)] ∧
      (p.afterAll remapped).table.resolve (utf8 "x") = some 0 ∧
      (p.afterAll remapped).table.resolve [] = some 1 :=
    ⟨_, rfl, by decide +kernel, by decide +kernel, by decide +kernel⟩
  have hmaps : ∀ x ∈ remapped, x.isMapping = true := by decide
  obtain ⟨hcheck, t', ht', -, hsame⟩ := mappings_folded hbuilt rfl remapped hmaps
  rw [hentries] at hcheck hsame
  have htexts : ∀ e ∈ [(utf8 "x", 0)], ∃ s, utf8 s = e.1 := by
    rw [List.forall_mem_singleton]
    exact ⟨"x", rfl⟩
  refine ⟨p, hbuilt, rfl, hmaps, hcheck.mpr (by decide), t', ht', ?_, ?_⟩
  · rw [hsame htexts, hx]
  · rw [hsame htexts, hempty]

/-- A client may map the empty key, and then the configuration does not pass its checks. -/
theorem emptyKey_not_folded :
    Config.sole.proxy = .ok sole ∧ Config.sole.routing.mode = .direct ∧
      (sole.begin (asked ["ADDKEYMAPPING", "g0", ""]) true).1 = .answered Wire.Reply.ok ∧
      (Config.sole.fold (mappingState
        (sole.afterAll [.request (asked ["ADDKEYMAPPING", "g0", ""]) true]).table)).check ≠
          .ok () := by
  have hbuilt : Config.sole.proxy = .ok sole := rfl
  obtain ⟨hcheck, -, table, -, htable, htable', -⟩ := Config.proxy_eq_ok hbuilt
  have hlive : Config.sole.Live (sole.afterAll
      [.request (asked ["ADDKEYMAPPING", "g0", ""]) true]).table := by
    refine live_afterAll ?_ (by decide)
    rw [htable']
    exact .of_routingTable hcheck rfl htable
  refine ⟨hbuilt, rfl, rfl, ?_⟩
  rw [Ne, hlive.check_folded hcheck rfl]
  decide +kernel

end Proxy

end ShardProxy
