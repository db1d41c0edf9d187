import Mathlib.Data.List.Forall2
import ShardProxy.Config.Build

/-!
# Checked configurations

What building a proxy relies on is what the checks have looked at before: known names of hashes and
policies, addresses that can be read, an owner for each slot, a group for each mapping.

* `bind_eq_ok`, `seq_eq_ok`, `forall₂_of_mapM`, `of_foldlM` — results of several steps;
* `Config.Checked` — what is known of a configuration that passes all checks.
-/

namespace ShardProxy

/-! ## Results of several steps -/

section Results

variable {ε α β : Type}

theorem bind_eq_ok {x : Except ε α} {f : α → Except ε β} {b : β} :
    x >>= f = .ok b ↔ ∃ a, x = .ok a ∧ f a = .ok b := by
  cases x with
  | error why => exact ⟨fun h => (by cases h), fun ⟨_, h, _⟩ => by cases h⟩
  | ok a =>
      constructor
      · exact fun h => ⟨a, rfl, h⟩
      · rintro ⟨a', ha, h⟩
        cases ha
        exact h

theorem seq_eq_ok {x : Except ε Unit} {y : Except ε β} {b : β} :
    (x >>= fun _ => y) = .ok b ↔ x = .ok () ∧ y = .ok b := by
  rw [bind_eq_ok]
  exact ⟨fun ⟨_, hx, hy⟩ => ⟨hx, hy⟩, fun ⟨hx, hy⟩ => ⟨(), hx, hy⟩⟩

/-- Each item leads to the result in its place. -/
theorem forall₂_of_mapM {f : α → Except ε β} {xs : List α} {ys : List β} (h : xs.mapM f = .ok ys) :
    List.Forall₂ (fun x y => f x = .ok y) xs ys := by
  induction xs generalizing ys with
  | nil =>
      cases h
      exact .nil
  | cons x xs ih =>
      rw [List.mapM_cons] at h
      obtain ⟨y, hy, h⟩ := bind_eq_ok.mp h
      obtain ⟨ys', hys, h⟩ := bind_eq_ok.mp h
      cases h
      exact .cons hy (ih hys)

theorem exists_of_forall₂ {R : α → β → Prop} {xs : List α} {ys : List β} {y : β}
    (h : List.Forall₂ R xs ys) (hy : y ∈ ys) : ∃ x ∈ xs, R x y := by
  induction h with
  | nil => cases hy
  | cons hfirst _ ih =>
      rcases List.mem_cons.mp hy with rfl | hy
      · exact ⟨_, List.mem_cons_self, hfirst⟩
      · obtain ⟨x, hx, hR⟩ := ih hy
        exact ⟨x, List.mem_cons_of_mem _ hx, hR⟩

/-- What every step keeps holds in the end. -/
theorem of_foldlM {P : α → Prop} {f : α → β → Except ε α} {bs : List β} {a a' : α}
    (hstep : ∀ a, ∀ b ∈ bs, ∀ a', P a → f a b = .ok a' → P a') (ha : P a)
    (h : bs.foldlM f a = .ok a') : P a' := by
  induction bs generalizing a with
  | nil =>
      cases h
      exact ha
  | cons b bs ih =>
      rw [List.foldlM_cons] at h
      obtain ⟨a₁, ha₁, h⟩ := bind_eq_ok.mp h
      have hfirst := hstep a b List.mem_cons_self a₁ ha ha₁
      exact ih (fun a b hb => hstep a b (List.mem_cons_of_mem _ hb)) hfirst h

theorem mapError_eq_ok {ε' : Type} {g : ε → ε'} {x : Except ε α} {a : α} :
    x.mapError g = .ok a ↔ x = .ok a := by
  cases x with
  | error why => exact ⟨fun h => (by cases h), fun h => (by cases h)⟩
  | ok b => exact ⟨fun h => (by cases h; rfl), fun h => (by cases h; rfl)⟩

theorem map_eq_ok {f : α → β} {x : Except ε α} {b : β} :
    x.map f = .ok b ↔ ∃ a, x = .ok a ∧ f a = b := by
  cases x with
  | error why => exact ⟨fun h => (by cases h), fun ⟨_, h, _⟩ => by cases h⟩
  | ok a =>
      constructor
      · intro h
        cases h
        exact ⟨a, rfl, rfl⟩
      · rintro ⟨_, ha, rfl⟩
        cases ha
        rfl

/-- A check of all items is a check of each. -/
theorem forM_eq_ok {f : α → Except ε Unit} {xs : List α} :
    xs.forM f = .ok () ↔ ∀ x ∈ xs, f x = .ok () := by
  induction xs with
  | nil => exact ⟨fun _ x hx => absurd hx List.not_mem_nil, fun _ => rfl⟩
  | cons x xs ih =>
      rw [List.forall_mem_cons, ← ih]
      show (f x >>= fun _ => xs.forM f) = .ok () ↔ _
      constructor
      · intro h
        obtain ⟨_, hx, hxs⟩ := bind_eq_ok.mp h
        exact ⟨hx, hxs⟩
      · rintro ⟨hx, hxs⟩
        exact bind_eq_ok.mpr ⟨(), hx, hxs⟩

/-- Where each item has a result all of them have one. -/
theorem exists_mapM_eq_ok {f : α → Except ε β} {xs : List α} (h : ∀ x ∈ xs, ∃ y, f x = .ok y) :
    ∃ ys, xs.mapM f = .ok ys := by
  induction xs with
  | nil => exact ⟨[], rfl⟩
  | cons x xs ih =>
      obtain ⟨y, hy⟩ := h x List.mem_cons_self
      obtain ⟨ys, hys⟩ := ih fun x hx => h x (List.mem_cons_of_mem _ hx)
      refine ⟨y :: ys, ?_⟩
      rw [List.mapM_cons, hy]
      show (xs.mapM f >>= fun ys => pure (y :: ys)) = _
      rw [hys]
      rfl

end Results

namespace Config

variable {c : Config}

theorem require_eq_ok {holds : Bool} {otherwise : String} :
    require holds otherwise = .ok () ↔ holds = true := by
  cases holds with
  | false => exact ⟨fun h => (by cases h), fun h => (by cases h)⟩
  | true => exact ⟨fun _ => rfl, fun _ => rfl⟩

/-! ## Groups -/

/-- What is known of a group that passes its checks. -/
structure Group.Checked (mode : Routing.Mode) (g : Group) : Prop where
  policy : (ShardProxy.Group.Policy.ofName? g.policy).isSome = true
  hosts : g.hosts ≠ []
  weight : mode = .ring → g.weight ≠ 0
  addresses : ∀ h ∈ g.hosts, (Net.Address.parse? h.addr).isSome = true

theorem Group.checked_of_check {mode : Routing.Mode} {names : List String} {g : Group}
    (h : g.check mode names = .ok ()) : g.Checked mode := by
  obtain ⟨_, _, h⟩ := bind_eq_ok.mp h
  obtain ⟨_, _, h⟩ := bind_eq_ok.mp h
  obtain ⟨_, hpolicy, h⟩ := bind_eq_ok.mp h
  obtain ⟨_, hhosts, h⟩ := bind_eq_ok.mp h
  obtain ⟨_, hweight, heach⟩ := bind_eq_ok.mp h
  rw [require_eq_ok] at hpolicy hhosts hweight
  refine ⟨hpolicy, by simpa using hhosts, fun hring => ?_, fun host hhost => ?_⟩
  · simpa [hring] using hweight
  · obtain ⟨_, haddress, _⟩ := bind_eq_ok.mp (forM_eq_ok.mp heach host hhost)
    exact require_eq_ok.mp haddress

theorem checked_of_checkGroups {mode : Routing.Mode} {names : List String} {gs : List Group}
    (h : checkGroups mode names gs = .ok ()) : ∀ g ∈ gs, g.Checked mode := by
  induction gs generalizing names with
  | nil => exact fun g hg => absurd hg List.not_mem_nil
  | cons first rest ih =>
      obtain ⟨_, hfirst, hrest⟩ := bind_eq_ok.mp h
      intro g hg
      rcases List.mem_cons.mp hg with rfl | hg
      · exact Group.checked_of_check hfirst
      · exact ih hrest g hg

/-! ## Configurations -/

/-- What is known of a configuration that passes all checks. -/
structure Checked (c : Config) : Prop where
  hash : ∃ kind, Hash.Kind.ofName? c.routing.hash = some kind
  slotCount : c.routing.mode = .direct → 0 < c.routing.slotCount
  groups : c.groups ≠ []
  each : ∀ g ∈ c.groups, g.Checked c.routing.mode
  owners : c.routing.mode = .direct → ∃ owners, c.slotAssignments = .ok owners
  mappings : ∀ m ∈ c.keyMappings, ∃ g, c.groupIndex? m.group = some g

theorem checked_of_check (h : c.check = .ok ()) : c.Checked := by
  obtain ⟨_, _, h⟩ := bind_eq_ok.mp h
  obtain ⟨_, hrouting, h⟩ := bind_eq_ok.mp h
  obtain ⟨_, hgroups, h⟩ := bind_eq_ok.mp h
  obtain ⟨_, heach, h⟩ := bind_eq_ok.mp h
  obtain ⟨_, hhash, hcount⟩ := bind_eq_ok.mp hrouting
  -- the slots are looked at in direct mode only
  obtain ⟨howners, hmappings⟩ : (c.routing.mode = .direct →
      ∃ owners, c.slotAssignments = .ok owners) ∧
      c.keyMappings.forM (KeyMapping.check c) = .ok () := by
    dsimp only at h
    split at h
    · obtain ⟨owners, howners, h⟩ := bind_eq_ok.mp h
      obtain ⟨_, hmappings, _⟩ := bind_eq_ok.mp h
      exact ⟨fun _ => ⟨owners, howners⟩, hmappings⟩
    · rename_i hring
      obtain ⟨_, hmappings, _⟩ := bind_eq_ok.mp h
      exact ⟨fun hmode => absurd hmode hring, hmappings⟩
  rw [require_eq_ok] at hhash hcount hgroups
  refine ⟨Option.isSome_iff_exists.mp hhash, fun hmode => ?_, by simpa using hgroups,
    checked_of_checkGroups heach, howners, fun m hm => ?_⟩
  · have hboth : c.routing.slotCount ≠ 0 ∧ c.routing.slotCount ≤ maxSlotCount := by
      simpa [hmode] using hcount
    exact Nat.pos_of_ne_zero hboth.1
  · obtain ⟨_, _, hgroup⟩ := bind_eq_ok.mp (forM_eq_ok.mp hmappings m hm)
    exact Option.isSome_iff_exists.mp (require_eq_ok.mp hgroup)

theorem groupIndex?_lt {name : String} {g : Nat} (h : c.groupIndex? name = some g) :
    g < c.groups.length :=
  (List.findIdx?_eq_some_iff_getElem.mp h).1

end Config

end ShardProxy
