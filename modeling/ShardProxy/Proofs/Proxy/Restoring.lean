import ShardProxy.Proofs.Proxy.Heirs
import ShardProxy.Proofs.Proxy.Mapping
import ShardProxy.Proofs.Routing.Overrides
import ShardProxy.Proxy.Dispatch

/-!
# Giving slots back

Groups are ejected and get their slots back while requests come in, timers fire and servants go up
and down, in any order. Nobody maps a slot by hand.

* `Proxy.Incident`, `Proxy.after` — what befalls a proxy, and what it makes of it;
* `Proxy.heirs` — the group that each slot was given back to last, or else its first owner;
* `Proxy.inTurn` — nothing on loan is given back, unless its first owner will get it later;
* `Proxy.slots_restored_in_turn` — with no ejection pending every slot is with its heir, and so
  with its first owner if slots were given back in turn;
* `Proxy.unrouted_slots_noted` — a slot that no group serves is written down for an ejected one.
-/

namespace ShardProxy

open Wire (Message)
open Health.State (Kept Inherits)

/-! ## Mapping keys leaves the slots -/

namespace Proxy

variable {t t' : Routing.Table} {request : Message}

theorem slots_addKeyMapping (h : (addKeyMapping t request).changed = some t') :
    t'.slots = t.slots := by
  obtain ⟨_, g, _, rfl⟩ := (leads_addKeyMapping t request).of_changed h
  rw [Routing.Table.foldl_addOverride]

theorem slots_delKeyMapping (h : (delKeyMapping t request).changed = some t') :
    t'.slots = t.slots := by
  obtain ⟨_, rfl⟩ := (leads_delKeyMapping t request).of_changed h
  rw [Routing.Table.foldl_removeOverride]

end Proxy

/-! ## Requests -/

namespace Health.State.Kept

variable {first : Routing.Slots} {heir : Nat → Option GroupId} {p : Proxy}

theorem select (h : Kept first heir p.health) (g : GroupId) (mutating : Bool) :
    Kept first heir (p.select g mutating).2.health := by
  unfold Proxy.select
  split
  · exact h
  · exact h

theorem forward (h : Kept first heir p.health) (key request : Bytes) (mutating : Bool) :
    Kept first heir (p.forward key request mutating).2.health := by
  unfold Proxy.forward
  split
  · exact h
  · rename_i g _
    have hselect := h.select g mutating
    split
    · rename_i p' hp'
      rw [hp'] at hselect
      exact hselect.report p'.isEnabled g
    · rename_i hp'
      rw [hp'] at hselect
      exact hselect

theorem forwardKey (h : Kept first heir p.health) (spec : Command.Spec) (m : Message) :
    Kept first heir (p.forwardKey spec m).2.health := by
  unfold Proxy.forwardKey
  split
  · exact h
  · exact h.forward _ _ _

theorem forwardAll (h : Kept first heir p.health) (mutating : Bool)
    (subs : List Command.SubRequest) :
    Kept first heir (p.forwardAll mutating subs).2.health := by
  induction subs generalizing p with
  | nil => exact h
  | cons sub rest ih => exact ih (h.forward sub.key sub.request mutating)

theorem scatter (h : Kept first heir p.health) (kind : Command.Multi) (spec : Command.Spec)
    (m : Message) : Kept first heir (p.scatter kind spec m).2.health := by
  unfold Proxy.scatter
  split
  · exact h
  · exact h.forwardKey spec m
  · exact h.forwardAll _ _

theorem administer (h : Kept first heir p.health) {o : Proxy.Outcome}
    (hslots : ∀ t, o.changed = some t → t.slots = p.table.slots) :
    Kept first heir (p.administer o).2.health := by
  show Kept first heir (p.afterAdmin o).health
  unfold Proxy.afterAdmin
  split
  · exact h
  · rename_i t ht
    exact h.of_slots (hslots t ht) rfl

theorem serve (h : Kept first heir p.health) {spec : Command.Spec}
    (hspec : (spec.kind != .hashMapping) = true) (m : Message) (authenticated : Bool) :
    Kept first heir (p.serve spec m authenticated).2.2.health := by
  unfold Proxy.serve
  dsimp only
  split
  · exact h.forwardKey spec m
  · exact h.scatter .get spec m
  · exact h.scatter .set spec m
  · exact h.scatter .del spec m
  · exact h
  · exact h
  · exact h
  · exact h
  · exact h
  · rename_i hkind
    exact absurd hkind (bne_iff_ne.mp hspec)
  · exact h.administer fun t ht => Proxy.slots_addKeyMapping ht
  · exact h.administer fun t ht => Proxy.slots_delKeyMapping ht

theorem «begin» (h : Kept first heir p.health) {m : Message}
    (hm : ((m.token? 0).bind Command.lookup).all (·.kind != .hashMapping) = true)
    (authenticated : Bool) : Kept first heir (p.begin m authenticated).2.2.health := by
  unfold Proxy.begin
  split
  · exact h
  · rename_i spec hspec
    rw [hspec] at hm
    split
    · exact h
    · exact h.serve hm m authenticated

end Health.State.Kept

namespace Proxy

/-! ## Runs -/

/-- What befalls the groups of a proxy. -/
inductive Incident where
  /-- A group could not serve. -/
  | report (g : GroupId)
  /-- The timer of a group fires, for a second look or for a poll. -/
  | timer (g : GroupId)
  /-- Servants went up or down: now they are these. -/
  | servants (now : Array Backend.Servant)
  /-- A client sends a request. -/
  | request (m : Message) (authenticated : Bool)

/-- It does not ask for a slot to be mapped to a group. -/
def Incident.leavesSlots : Incident → Bool
  | .request m _ => ((m.token? 0).bind Command.lookup).all (·.kind != .hashMapping)
  | _ => true

def after (p : Proxy) : Incident → Proxy
  | .report g => (p.report g).2
  | .timer g => (p.fireHealth g).2
  | .servants now => { p with servants := now }
  | .request m authenticated => (p.begin m authenticated).2.2

def afterAll (p : Proxy) (xs : List Incident) : Proxy := xs.foldl after p

/-- The group whose ejection comes to an end, and the slots that it gets back. -/
def givenBack (p : Proxy) (x : Incident) : Option (GroupId × List Nat) :=
  match x with
  | .timer g =>
    if p.monitor.isEjected g && !(p.after x).monitor.isEjected g then
      some (g, (p.monitor.record g).snapshot)
    else none
  | _ => none

def inherit (heir : Nat → Option GroupId) : Option (GroupId × List Nat) → Nat → Option GroupId
  | none => heir
  | some (g, slots) => fun i => if i ∈ slots then some g else heir i

/-- The group that each slot is given back to last, and `heir` where it is not. -/
def heirs (p : Proxy) (heir : Nat → Option GroupId) : List Incident → Nat → Option GroupId
  | [] => heir
  | x :: xs => (p.after x).heirs (inherit heir (p.givenBack x)) xs

/-- No group is given back a slot that is not its own, unless the ejection of the slot's own group
is pending. -/
def inTurn (p : Proxy) (own : Nat → Option GroupId) : List Incident → Bool
  | [] => true
  | x :: xs =>
    (match p.givenBack x with
      | none => true
      | some (g, slots) => slots.all fun i =>
        own i == some g || (own i).any (p.after x).monitor.isEjected) &&
    (p.after x).inTurn own xs

section Kept

variable {first : Routing.Slots} {heir heir' : Nat → Option GroupId} {p : Proxy} {x : Incident}
variable {xs : List Incident}

/-- One incident keeps every slot with its heir, where the heirs are those who slots are given
back to. -/
theorem kept_after (hx : x.leavesSlots = true) (h : Kept first heir p.health)
    (hnone : p.givenBack x = none → heir' = heir)
    (hsome : ∀ g slots, p.givenBack x = some (g, slots) →
      Inherits first heir heir' (p.after x).monitor.isEjected g slots) :
    Kept first heir' (p.after x).health := by
  cases x with
  | report g =>
      rw [hnone rfl]
      exact h.report p.isEnabled g
  | servants now =>
      rw [hnone rfl]
      exact h
  | request m authenticated =>
      rw [hnone rfl]
      exact h.begin hx authenticated
  | timer g =>
      rcases h.fire_cases p.isEnabled g with ⟨hejected, _, hrestore⟩ | ⟨hsame, _, hkept⟩
      · have hafter : (p.after (.timer g)).health = p.health.restore g := hrestore
        have hmonitor : (p.after (.timer g)).monitor = (p.health.restore g).monitor :=
          congrArg Health.State.monitor hafter
        have hended : (p.after (.timer g)).monitor.isEjected g = false := by
          rw [hmonitor]
          exact Health.Monitor.isEjected_setRecord_self _ _ _
        have hpending : p.monitor.isEjected g = true := hejected
        have hgiven : p.givenBack (.timer g) = some (g, (p.monitor.record g).snapshot) := by
          unfold givenBack
          dsimp only
          rw [hpending, hended]
          rfl
        rw [hafter]
        exact h.restore (hmonitor ▸ hsome g _ hgiven)
      · have hended : (p.after (.timer g)).monitor.isEjected g = p.monitor.isEjected g := hsame
        have hgiven : p.givenBack (.timer g) = none := by
          unfold givenBack
          dsimp only
          rw [hended, Bool.and_not_self]
          rfl
        rw [hnone hgiven]
        exact hkept

theorem kept_afterAll (hxs : ∀ x ∈ xs, x.leavesSlots = true) (h : Kept first heir p.health) :
    Kept first (p.heirs heir xs) (p.afterAll xs).health := by
  induction xs generalizing p heir with
  | nil => exact h
  | cons x xs ih =>
      obtain ⟨hx, hxs⟩ := List.forall_mem_cons.mp hxs
      refine ih hxs (kept_after hx h (fun hnone => ?_) fun g slots hsome => ?_)
      · rw [hnone]
        rfl
      · rw [hsome]
        exact ⟨fun i _ hmem => .inl (if_pos hmem), fun i _ hmem => if_neg hmem⟩

theorem isSome_heirs (xs : List Incident) {i : Nat} (h : (heir i).isSome = true) :
    (p.heirs heir xs i).isSome = true := by
  induction xs generalizing p heir with
  | nil => exact h
  | cons x xs ih =>
      refine ih ?_
      cases p.givenBack x with
      | none => exact h
      | some given =>
          show (if i ∈ given.2 then some given.1 else heir i).isSome = true
          split
          · rfl
          · exact h

/-- In turn the heirs stay who they are. -/
theorem kept_afterAll_inTurn (hxs : ∀ x ∈ xs, x.leavesSlots = true) (h : Kept first heir p.health)
    (hturn : p.inTurn heir xs = true) : Kept first heir (p.afterAll xs).health := by
  induction xs generalizing p with
  | nil => exact h
  | cons x xs ih =>
      obtain ⟨hx, hxs⟩ := List.forall_mem_cons.mp hxs
      unfold inTurn at hturn
      rw [Bool.and_eq_true] at hturn
      refine ih hxs (kept_after hx h (fun _ => rfl) fun g slots hsome => ?_) hturn.2
      have hall := hturn.1
      rw [hsome] at hall
      refine ⟨?_, fun _ _ _ => rfl⟩
      intro i _ hmem
      rcases Bool.or_eq_true_iff.mp (List.all_eq_true.mp hall i hmem) with hown | hlater
      · exact .inl (beq_iff_eq.mp hown)
      · obtain ⟨k, hk, hejected⟩ := (Option.any_eq_true _ _).mp hlater
        exact .inr ⟨k, hk, hk, hejected⟩

end Kept

variable {p : Proxy} {xs : List Incident}

/-! ## What comes back -/

/-- **What comes back.** Once no ejection is pending every slot is with the group that got it back
last, or else with its first owner. So the slots are as they were exactly where each of them was
last given back to its first owner, and they are if groups got their slots back in turn. -/
theorem slots_restored_in_turn (hrecords : p.monitor.records = [])
    (hrestore : p.monitor.options.ejectAfterRestore = true) (hxs : ∀ x ∈ xs, x.leavesSlots = true)
    (hidle : ∀ g, (p.afterAll xs).monitor.isEjected g = false) :
    (∀ i < p.table.slots.size,
      (p.afterAll xs).table.ownerAt? i = p.heirs p.table.ownerAt? xs i) ∧
    ((p.afterAll xs).table.slots = p.table.slots ↔
      ∀ i < p.table.slots.size, p.heirs p.table.ownerAt? xs i = p.table.ownerAt? i) ∧
    (p.inTurn p.table.ownerAt? xs = true → (p.afterAll xs).table.slots = p.table.slots) := by
  have hfresh : Kept p.table.slots p.table.ownerAt? p.health :=
    Kept.fresh (s := p.health) hrecords hrestore
  have hkept := kept_afterAll hxs hfresh
  have hheirs : ∀ i < p.table.slots.size,
      (p.afterAll xs).table.ownerAt? i = p.heirs p.table.ownerAt? xs i :=
    fun i hi => hkept.settled hidle hi
  -- slots in their places are the same where their owners are
  have hsame (howners : ∀ i < p.table.slots.size,
      (p.afterAll xs).table.ownerAt? i = p.table.ownerAt? i) :
      (p.afterAll xs).table.slots = p.table.slots :=
    Routing.Slots.ext_owners hkept.placed fun i hi => howners i (hkept.size_eq ▸ hi)
  refine ⟨hheirs, ⟨?_, ?_⟩, ?_⟩
  · intro hslots i hi
    rw [← hheirs i hi]
    unfold Routing.Table.ownerAt?
    rw [hslots]
  · intro howners
    refine hsame ?_
    intro i hi
    rw [hheirs i hi, howners i hi]
  · intro hturn
    have hkept' := kept_afterAll_inTurn hxs hfresh hturn
    exact hsame fun i hi => hkept'.settled hidle hi

/-- Two groups with a slot and a host each. -/
def pair : Proxy where
  table := ⟨.direct, .bytes, [⟨"a", 1⟩, ⟨"b", 1⟩], #[⟨some 0, 0⟩, ⟨some 1, 1⟩], .empty⟩
  members := [{ policy := .masterOnly, masters := [0] }, { policy := .masterOnly, masters := [1] }]
  monitor := { options := { autoEject := true, ejectAfterRestore := true } }
  servants := #[]

/-- The hosts of the two groups are up or down. -/
def pairUp (a b : Bool) : Incident :=
  let host (name : String) (active : Bool) : Backend.Servant :=
    { Backend.Servant.ofProfile { name, address := "127.0.0.1:6379", master := true } with active }
  .servants #[host "a" a, host "b" b]

/-- The first group goes down, and then the second one with the slot that it has on loan. They come
back one after the other, the second one first. -/
def bothDown : List Incident :=
  [pairUp false true, .report 0, pairUp false false, .report 1,
    pairUp false true, .timer 1, pairUp true true, .timer 0]

theorem slots_restored_in_turn_pair : (pair.afterAll bothDown).table.slots = pair.table.slots := by
  refine (slots_restored_in_turn rfl rfl (by decide) ?_).2.2 (by decide +kernel)
  exact Health.Monitor.isEjected_of_records (by decide +kernel)

/-- As before, but the first group comes back first. -/
def lentForGood : List Incident :=
  [pairUp false true, .report 0, pairUp false false, .report 1,
    pairUp true false, .timer 0, pairUp true true, .timer 1]

theorem slots_lent_for_good :
    pair.monitor.records = [] ∧ pair.monitor.options.autoEject = true ∧
      pair.monitor.options.ejectAfterRestore = true ∧ (∀ x ∈ lentForGood, x.leavesSlots = true) ∧
      (∀ g, (pair.afterAll lentForGood).monitor.isEjected g = false) ∧
      (pair.afterAll lentForGood).table.slots ≠ pair.table.slots := by
  refine ⟨rfl, rfl, rfl, by decide, ?_, by decide +kernel⟩
  exact Health.Monitor.isEjected_of_records (by decide +kernel)

/-! ## What waits to come back -/

/-- **No slot is forgotten.** Where every slot had an owner, a slot without one, and a slot of a
group whose ejection is pending, is written down for a group whose ejection is pending. The timer
of that group is set, and if it fires while a servant of the group is live, the group has the slot
again. -/
theorem unrouted_slots_noted (hrecords : p.monitor.records = [])
    (hrestore : p.monitor.options.ejectAfterRestore = true)
    (howned : ∀ i < p.table.slots.size, (p.table.ownerAt? i).isSome = true)
    (hxs : ∀ x ∈ xs, x.leavesSlots = true) {i : Nat} (hi : i < (p.afterAll xs).table.slots.size)
    (hunrouted : ∀ h, (p.afterAll xs).table.ownerAt? i = some h →
      (p.afterAll xs).monitor.isEjected h = true) :
    ∃ g, (p.afterAll xs).monitor.isEjected g = true ∧
      i ∈ ((p.afterAll xs).monitor.record g).snapshot ∧
      ((p.afterAll xs).monitor.record g).timer.isSome = true ∧
      ∀ now, ((p.afterAll xs).after (.servants now)).isEnabled g = true →
        (((p.afterAll xs).after (.servants now)).after (.timer g)).table.ownerAt? i = some g := by
  have hkept := kept_afterAll hxs (.fresh hrecords hrestore : Kept _ _ p.health)
  have hi' : i < p.table.slots.size := hkept.size_eq ▸ hi
  obtain ⟨g, hheir⟩ := Option.isSome_iff_exists.mp (isSome_heirs xs (howned i hi'))
  have hejected : (p.afterAll xs).monitor.isEjected g = true := by
    by_cases hwith : (p.afterAll xs).table.ownerAt? i = some g
    · exact hunrouted g hwith
    · obtain ⟨k, hk, hejected⟩ := hkept.away i hi' fun h => hwith (h.trans hheir)
      obtain rfl : k = g := Option.some.inj (hk.symm.trans hheir)
      exact hejected
  have hnoted := hkept.noted i hi' g hheir hejected
  refine ⟨g, hejected, hnoted, (hkept.timed g).trans hejected, ?_⟩
  intro now henabled
  have hkept' : Kept _ _ ((p.afterAll xs).after (.servants now)).health := hkept
  rcases hkept'.fire_cases _ g with ⟨_, _, hfire⟩ | ⟨_, hidle, _⟩
  · show (((p.afterAll xs).after (.servants now)).health.fire _ g).2.table.ownerAt? i = some g
    rw [hfire]
    exact Routing.Table.ownerAt?_restore_of_mem hi hnoted
  · have hnot : (p.afterAll xs).monitor.isEjected g = false := hidle henabled
    rw [hejected] at hnot
    cases hnot

/-- While both groups are down nobody owns a slot, and each slot is written down. -/
theorem unrouted_slots_noted_pair :
    (pair.afterAll (bothDown.take 4)).table.ownerAt? 0 = none ∧
      ∃ g, (pair.afterAll (bothDown.take 4)).monitor.isEjected g = true ∧
        0 ∈ ((pair.afterAll (bothDown.take 4)).monitor.record g).snapshot := by
  have hnone : (pair.afterAll (bothDown.take 4)).table.ownerAt? 0 = none := by decide +kernel
  have hunrouted : ∀ h, (pair.afterAll (bothDown.take 4)).table.ownerAt? 0 = some h →
      (pair.afterAll (bothDown.take 4)).monitor.isEjected h = true := by
    intro h hh
    rw [hnone] at hh
    cases hh
  obtain ⟨g, hejected, hnoted, _⟩ := unrouted_slots_noted rfl rfl (by decide +kernel) (by decide)
    (by decide +kernel) hunrouted
  exact ⟨hnone, g, hejected, hnoted⟩

end Proxy

end ShardProxy
