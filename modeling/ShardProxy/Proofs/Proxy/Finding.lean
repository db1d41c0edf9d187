import ShardProxy.Proofs.Group.Selecting
import ShardProxy.Proxy.Dispatch

/-!
# Finding a live servant

A group with a live servant serves every request, as long as its walks are whole. A walk that passes
the end of the range of cursors within a round leaves somebody out. If that is the only live servant
then the request is refused, and the group is reported although it is enabled.

* `Members.Whole` — the cursors from which all servants are come by;
* `Members.exists_unfound` — from all others somebody is left out;
* `Proxy.found_if_enabled` — what requests meet in a group.
-/

namespace ShardProxy

namespace Group.Members

variable {m : Members} {s : ServantId}

/-- The next walks over both lists are whole. -/
def Whole (m : Members) : Prop :=
  ∀ side : Side, Group.Whole (side.choose m.masters m.replicas).length (m.cursors.cursor side)

/-- In a group of pairwise different servants, whoever is left out by a walk is not found where nobody
else is live. -/
theorem exists_unfound (hnodup : m.all.Nodup) (h : ¬ m.Whole) (mutating : Bool) :
    ∃ s ∈ m.all, (m.select (· == s) mutating).1 = none := by
  obtain ⟨side, hpasses⟩ := not_forall.mp h
  obtain ⟨i, hi, hmissed⟩ := exists_missed hpasses
  have hhere := side.mem_choose.mp (List.mem_append_left _ (List.getElem_mem hi))
  obtain ⟨hside, -, hapart⟩ := List.nodup_append.mp (side.nodup_choose.mpr hnodup)
  -- neither of the two walks finds that servant
  have hwalk : ∀ x : Side, firstLive (· == (side.choose m.masters m.replicas)[i])
      (x.choose m.masters m.replicas) (m.cursors.cursor x) = none := by
    intro x
    rcases side.eq_or_other x with rfl | rfl
    · exact firstLive_of_missed hside hi hmissed
    · exact firstLive_of_dead
        (fun t ht => beq_false_of_ne (hapart _ (List.getElem_mem hi) t ht).symm) _
  refine ⟨_, hhere, ?_⟩
  show (Cursors.select _ _ _ _ _ _).1 = none
  rw [Cursors.select_fst, hwalk, hwalk]
  rfl

end Group.Members

namespace Proxy

open ShardProxy.Group (Members Cursors)

variable {p : Proxy} {g : GroupId} {m : Members}

/-- What becomes of a request whose key belongs to a group. -/
theorem forward_cases {key : Bytes} (hkey : p.table.resolve key = some g)
    (hm : p.members[g]? = some m) (request : Bytes) (mutating : Bool) :
    (∃ s, (m.select p.isLive mutating).1 = some s ∧
      (p.forward key request mutating).1 = .send s request ∧
      (p.forward key request mutating).2.health = p.health) ∨
    (m.select p.isLive mutating).1 = none ∧ (p.forward key request mutating).1 = .refused := by
  have hselect : p.select g mutating = ((m.select p.isLive mutating).1,
      { p with members := p.members.set g (m.select p.isLive mutating).2 }) := by
    unfold select
    rw [hm]
  unfold forward
  rw [hkey]
  simp only [hselect]
  cases hfound : (m.select p.isLive mutating).1 with
  | some s => exact .inl ⟨s, rfl, rfl, rfl⟩
  | none => exact .inr ⟨rfl, rfl⟩

/-- **A request finds a live servant if its group has one and the walks of the group are whole**; then
the group is not reported. If they are not whole there is a servant that would not be found. -/
theorem found_if_enabled (hm : p.members[g]? = some m) (mutating : Bool) :
    (∀ live s, (m.select live mutating).1 = some s → s ∈ m.all ∧ live s = true) ∧
    (m.Whole →
      (∀ live, (∃ s, (m.select live mutating).1 = some s) ↔ m.isEnabled live = true) ∧
      ∀ key request, p.table.resolve key = some g →
        (p.isEnabled g = true → ∃ s ∈ m.all, p.isLive s = true ∧
          (p.forward key request mutating).1 = .send s request ∧
          (p.forward key request mutating).2.health = p.health) ∧
        (p.isEnabled g = false → (p.forward key request mutating).1 = .refused)) ∧
    (m.all.Nodup → ¬ m.Whole → ∃ s ∈ m.all, (m.select (· == s) mutating).1 = none) := by
  refine ⟨fun live s => Cursors.mem_of_select, fun hwhole => ?_, fun hnodup hpasses =>
    Members.exists_unfound hnodup hpasses mutating⟩
  have hiff : ∀ live, (∃ s, (m.select live mutating).1 = some s) ↔ m.isEnabled live = true := by
    intro live
    rw [Members.isEnabled, List.any_eq_true]
    exact Cursors.exists_select_iff hwhole m.policy mutating
  have hgroup : p.isEnabled g = m.isEnabled p.isLive := by
    unfold isEnabled
    rw [hm]
    rfl
  refine ⟨hiff, fun key request hkey => ?_⟩
  rw [hgroup]
  rcases forward_cases hkey hm request mutating with
    ⟨s, hfound, hsent, hhealth⟩ | ⟨hnobody, hrefused⟩
  · obtain ⟨hmem, hlive⟩ := Cursors.mem_of_select hfound
    refine ⟨fun _ => ⟨s, hmem, hlive, hsent, hhealth⟩, fun hdisabled => ?_⟩
    have henabled := (hiff p.isLive).mp ⟨s, hfound⟩
    simp [hdisabled] at henabled
  · refine ⟨fun henabled => ?_, fun _ => hrefused⟩
    obtain ⟨s, hfound⟩ := (hiff p.isLive).mpr henabled
    simp [hnobody] at hfound

/-- Three masters, of which only the last one is live, and a group to move slots to. -/
def trio (cursor : UInt64) : Proxy where
  table := ⟨.direct, .bytes, [⟨"g0", 1⟩, ⟨"g1", 1⟩], #[⟨some 0, 0⟩], .empty⟩
  members := [{ policy := .masterOnly, masters := [0, 1, 2], cursors := { masters := cursor } },
    { policy := .masterOnly, masters := [3] }]
  monitor := { options := { autoEject := true } }
  servants := #[.ofProfile { name := "a", address := "127.0.0.1:10001", master := true },
    .ofProfile { name := "b", address := "127.0.0.1:10002", master := true },
    { Backend.Servant.ofProfile { name := "c", address := "127.0.0.1:10003", master := true } with
      active := true },
    { Backend.Servant.ofProfile { name := "d", address := "127.0.0.1:10004", master := true } with
      active := true }]

theorem found_if_enabled_trio :
    (trio 0).isEnabled 0 = true ∧
      ((trio 0).forward (Text.utf8 "a") (Text.utf8 "x") true).1 = .send 2 (Text.utf8 "x") := by
  have hm : (trio 0).members[0]? = some { policy := .masterOnly, masters := [0, 1, 2] } := rfl
  have hwhole : Members.Whole { policy := .masterOnly, masters := [0, 1, 2] } := by
    intro side
    cases side <;> decide
  have henabled : (trio 0).isEnabled 0 = true := by decide
  obtain ⟨-, hfound, -⟩ := found_if_enabled hm true
  obtain ⟨s, hmem, hlive, hsent, -⟩ :=
    ((hfound hwhole).2 (Text.utf8 "a") (Text.utf8 "x") (by decide +kernel)).1 henabled
  have hs : s = 2 := by
    have honly : ∀ s ∈ [0, 1, 2], (trio 0).isLive s = true → s = 2 := by decide
    exact honly s hmem hlive
  exact ⟨henabled, hs ▸ hsent⟩

/-- From the largest cursor a walk comes by the first master twice and not by the last one. So the
group loses its slot, although it is enabled. -/
theorem live_unfound :
    let p := trio 18446744073709551615
    p.table.resolve (Text.utf8 "a") = some 0 ∧ p.isEnabled 0 = true ∧
      (p.select 0 true).1 = none ∧
      (p.forward (Text.utf8 "a") (Text.utf8 "x") true).1 = .refused ∧
      (p.forward (Text.utf8 "a") (Text.utf8 "x") true).2.table.ownedBy 0 = [] := by
  decide +kernel

end Proxy

end ShardProxy
