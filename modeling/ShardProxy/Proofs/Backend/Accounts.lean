import ShardProxy.Proofs.Backend.Spare

/-!
# The accounts of a pool are exact

A servant balances its books in every state that it can come to, whatever events come in whatever
order: requests, dials that succeed or fail, what hosts send and when they close, alarms, starts and
stops. So the pool counts exactly the connections and the room that tasks have.

* `Servant.Reachable` — the states of a servant, with nothing assumed of its surroundings;
* `Servant.after` — a servant after events;
* `Servant.pool_accounts` — what the pool counts, in each of them.
-/

namespace ShardProxy.Backend

namespace Servant

/-- The connections of the pool that tasks have: those of round trips, and those that were handed to
waiters. -/
def held (s : Servant) : List Conn := s.tasks.filterMap (·.2.lent?)

/-- The number of dials for which room is reserved. -/
def reserved (s : Servant) : Nat := s.tasks.countP (·.2.reserves)

/-- The states that a servant comes to, beginning with nothing under way. Any event may come next,
also one that nobody expects. -/
inductive Reachable (p : Profile) : Servant → Prop where
  | initial : Reachable p (.ofProfile p)
  | event {s : Servant} (ev : Event) : Reachable p s → Reachable p (s.step ev).1

/-- A servant after events. -/
def after (s : Servant) (evs : List Event) : Servant := evs.foldl (fun s ev => (s.step ev).1) s

theorem after_concat (s : Servant) (evs : List Event) (ev : Event) :
    s.after (evs ++ [ev]) = ((s.after evs).step ev).1 := List.foldl_concat ..

variable {p : Profile} {s : Servant}

theorem Reachable.after (h : Reachable p s) (evs : List Event) : Reachable p (s.after evs) := by
  induction evs generalizing s with
  | nil => exact h
  | cons ev evs ih => exact ih (h.event ev)

theorem Reachable.ledger (h : Reachable p s) : Ledger p False s [] [] := by
  -- between two events no task runs and nothing is in hand
  induction h with
  | initial => exact Ledger.initial p False
  | event ev _ ih =>
      have hreact := ih.react ev fun hfalse => hfalse.elim
      exact hreact.of_books rfl

/-- What counts among the stakes of some tasks: a connection for each that has one, and room for
each that reserves it. -/
theorem countP_stakes (tasks : List (TaskId × Task)) :
    (tasks.flatMap (·.2.stakes)).countP Stake.counts =
      (tasks.filterMap (·.2.lent?)).length + tasks.countP (·.2.reserves) := by
  induction tasks with
  | nil => rfl
  | cons q tasks ih =>
      have hstakes := Task.countP_stakes q.2
      rw [List.flatMap_cons, List.countP_append, ih, hstakes, List.filterMap_cons, List.countP_cons]
      cases q.2.lent? with
      | none =>
          simp only [Option.toList_none, List.length_nil]
          omega
      | some conn =>
          simp only [Option.toList_some, List.length_cons, List.length_nil]
          omega

/-- The connections of tasks are among their stakes, in the same order. -/
theorem held_sublist (tasks : List (TaskId × Task)) :
    ((tasks.filterMap (·.2.lent?)).map Conn.id).Sublist
      ((tasks.flatMap (·.2.stakes)).filterMap Stake.id?) := by
  induction tasks with
  | nil => exact List.Sublist.refl _
  | cons q tasks ih =>
      obtain ⟨t, task⟩ := q
      rw [List.flatMap_cons, List.filterMap_append]
      cases task with
      | handed | exchanging | repairing => exact ih.cons_cons _
      | connecting | refillConnecting | opening => exact ih.cons _
      | entering | acquiring | lining | queued | refilling | linking | watching | retrying =>
          exact ih

end Servant

theorem Ledger.active_eq {p : Profile} {heedful : Prop} {s : Servant}
    (h : Ledger p heedful s [] []) : s.pool.active = s.held.length + s.reserved := by
  have hcounted := h.balanced.counted
  unfold Servant.stakes at hcounted
  rw [resting_nil_running, List.nil_append, Servant.countP_stakes] at hcounted
  exact hcounted

/-- Whatever has something that the pool counts makes the count positive. -/
theorem Ledger.solvent {p : Profile} {heedful : Prop} {s : Servant}
    (h : Ledger p heedful s [] []) : s.Solvent := by
  intro q hq hcounts
  rw [h.active_eq]
  unfold Task.counts at hcounts
  rcases Bool.or_eq_true_iff.mp hcounts with hlent | hreserves
  · obtain ⟨conn, hconn⟩ := Option.isSome_iff_exists.mp hlent
    have hmem : conn ∈ s.held := List.mem_filterMap.mpr ⟨q, hq, hconn⟩
    have hpos := List.length_pos_of_mem hmem
    omega
  · have hpos : 0 < s.reserved := List.countP_pos_iff.mpr ⟨q, hq, hreserves⟩
    omega

namespace Servant

variable {p : Profile} {s : Servant}

/-- **The accounts of a pool are exact**, in every state that a servant can come to. The pool counts
as active the connections that tasks have and the dials for which room is reserved, and nothing
else; so it counts none where no task has either. Active and idle connections together fit in its
capacity, which never changes. No connection is idle and held at once, or held by two tasks. And the
count never goes down from zero: with one more connection in use and room for it, every step would
be the same. -/
theorem pool_accounts (h : Reachable p s) :
    s.pool.active = s.held.length + s.reserved ∧
    s.pool.active + s.pool.idle.length ≤ s.pool.capacity ∧
    s.pool.capacity = p.poolSize ∧
    ((s.pool.idle ++ s.held).map Conn.id).Nodup ∧
    (∀ ev, s.spare.react ev = (s.react ev).spare) ∧
    ((∀ q ∈ s.tasks, q.2.lent? = none ∧ q.2.reserves = false) → s.pool.active = 0) := by
  have hledger := h.ledger
  have hbalanced := hledger.balanced
  have hactive := hledger.active_eq
  refine ⟨hactive, hbalanced.within, hbalanced.capacity, ?_, react_spare s hledger.solvent, ?_⟩
  · -- the links that are dialled are numbered apart from all of these, too
    have hapart := hbalanced.apart
    unfold stakes at hapart
    rw [resting_nil_running, List.nil_append] at hapart
    rw [List.map_append]
    exact hapart.sublist ((held_sublist s.tasks).append_left _)
  · intro hnone
    have hheld : s.held = [] := List.filterMap_eq_nil_iff.mpr fun q hq => (hnone q hq).1
    have hreserved : s.reserved = 0 := by
      refine List.countP_eq_zero.mpr fun q hq => ?_
      rw [(hnone q hq).2]
      exact Bool.false_ne_true
    rw [hactive, hheld, hreserved]
    rfl

/-- A host with room for two connections. -/
def pairHost : Profile :=
  { name := "a", address := "10.0.0.1:6379", master := true, poolSize := 2 }

/-- One request has the first connection, another dials for a second, and meanwhile the host was
stopped and started again: the pool was closed and reopened with both of them under way. -/
def reopened : Servant := (ofProfile pairHost).after [.start 0, .dialed 0 none, .dialed 1 none,
  .execute ⟨0, [71, 65]⟩, .wake 2, .wake 2, .execute ⟨1, [71, 66]⟩, .wake 3, .wake 3,
  .stop, .start 1, .dialed 3 none]

/-- The new first connection does not fit beside them, and so the pool stays within its capacity. -/
theorem pool_accounts_reopened :
    Reachable pairHost reopened ∧ reopened.pool.isOpen = true ∧ reopened.pool.idle = [] ∧
      reopened.pool.active = 2 ∧ reopened.held.length + reopened.reserved = 2 := by
  have hreachable : Reachable pairHost reopened := Reachable.initial.after _
  obtain ⟨hactive, _⟩ := pool_accounts hreachable
  have htwo : reopened.pool.active = 2 := by decide
  refine ⟨hreachable, by decide, by decide, htwo, ?_⟩
  rw [← hactive]
  exact htwo

end Servant

end ShardProxy.Backend
