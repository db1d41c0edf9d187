import ShardProxy.Proofs.Backend.Accounts

/-!
# Who sees to the queue

A queued request waits until some task hands it a connection or fails it. Tasks that have a
connection, or room for one, look at the queue when they are done; so does a refill. Two do less
than that. A request whose dial fails, with room reserved for it, answers for itself and leaves the
queue as it is; a refill that fails sees to one of those who wait, and leaves the others. If that
was their last hope, they wait until another request comes and gets a connection. The same happens
to a request that lines up at a pool that never has room, or is closed under a servant that is
active.

* `Servant.Tended` — either nobody waits, or somebody will see to the queue;
* `Servant.Strands.leaves` — what a step that strands leaves behind;
* `Servant.tended_step_iff` — no other step does;
* `Servant.nobody_left_waiting` — the runs in which nobody is ever left.
-/

namespace ShardProxy.Backend

/-- To look at the queue is all that heed takes. -/
theorem Ledger.heed {p : Profile} {s : Servant} (h : Ledger p False s [] [])
    (htended : s.waiting ≠ [] → ∃ a ∈ s.stakes [], a.helps = true) : Ledger p True s [] [] := by
  obtain ⟨hcapacity, hcounted, hwithin, hapart, hknown, howed, -⟩ := h.balanced
  exact ⟨h.lined, hcapacity, hcounted, hwithin, hapart, hknown, howed, fun _ => htended⟩

namespace Servant

/-- Where no round trip, dial with room reserved for it, repair or refill is in progress, nobody
waits. -/
def Tended (s : Servant) : Prop := (∀ q ∈ s.tasks, q.2.helps = false) → s.waiting = []

instance (s : Servant) : Decidable s.Tended :=
  inferInstanceAs (Decidable ((∀ q ∈ s.tasks, q.2.helps = false) → s.waiting = []))

/-- No event of the run leaves requests in the queue with nobody to look to. -/
def StrandsNobody (s : Servant) (evs : List Event) : Prop :=
  ∀ before ev rest, evs = before ++ ev :: rest →
    ¬ (s.after before).Strands ((s.after before).react ev)

variable {p : Profile} {s s' : Servant} {t : TaskId}

/-- Who waits has somebody to look to, told by stakes. -/
theorem tended_iff :
    s.Tended ↔ (s.waiting ≠ [] → ∃ a ∈ s.stakes [], a.helps = true) := by
  have hhelped : (∃ a ∈ s.stakes [], a.helps = true) ↔ ∃ q ∈ s.tasks, q.2.helps = true := by
    unfold stakes
    rw [resting_nil_running]
    simp only [List.mem_flatMap, ← Task.exists_helps]
    tauto
  rw [hhelped, ← not_imp_not, not_not]
  unfold Tended
  push Not
  simp only [Bool.not_eq_true]

theorem mem_of_failWaiter {q : TaskId × Task} (h : q ∈ s.failWaiter.tasks) : q ∈ s.tasks := by
  unfold failWaiter at h
  split at h
  · exact h
  · dsimp only at h
    split at h
    · exact (List.mem_filter.mp h).1
    · exact h

/-- Without `t` there is nobody who helps. -/
theorem Unhelped.endTask (h : s.Unhelped t) : ∀ q ∈ (s.endTask t).tasks, q.2.helps = false := by
  intro q hq
  obtain ⟨hmem, hne⟩ := List.mem_filter.mp hq
  exact h q hmem (by simpa using hne)

/-- The oldest waiter is failed with the last task that helped. Those behind it are left. -/
theorem Unhelped.failWaiter (h : s.Unhelped t) (hmore : 2 ≤ s.waiting.length) :
    (s.endTask t).failWaiter.waiting ≠ [] ∧
      ∀ q ∈ (s.endTask t).failWaiter.tasks, q.2.helps = false := by
  refine ⟨?_, fun q hq => h.endTask q (mem_of_failWaiter hq)⟩
  have hlength : (s.endTask t).failWaiter.waiting.length = s.waiting.length - 1 := by
    rw [waiting_failWaiter, List.length_tail]
    rfl
  refine List.ne_nil_of_length_pos ?_
  omega

/-- **Steps that strand leave somebody waiting**, and no task that will look at the queue. -/
theorem Strands.leaves (h : s.Strands s')
    (hwithin : s.pool.active + s.pool.idle.length ≤ s.pool.capacity) :
    s'.waiting ≠ [] ∧ ∀ q ∈ s'.tasks, q.2.helps = false := by
  cases h with
  | @dialFailed s₁ t e c why hbooks ht hun hwait =>
      obtain ⟨htasks, -, hwaiting, -⟩ := books_eq hbooks
      have hun₁ : s₁.Unhelped t := hun.of_tasks htasks
      refine ⟨?_, hun₁.endTask⟩
      show s₁.waiting ≠ []
      rw [hwaiting]
      exact hwait
  | @refillFailed s₁ t c why hbooks ht hun hmore =>
      obtain ⟨htasks, -, hwaiting, -⟩ := books_eq hbooks
      have hun₁ : ({ s₁ with pool := s₁.pool.abandon } : Servant).Unhelped t := hun.of_tasks htasks
      refine hun₁.failWaiter ?_
      rw [hwaiting]
      exact hmore
  | @refillRefused s₁ t hbooks ht hun hmore hshut =>
      obtain ⟨htasks, hpool, hwaiting, -⟩ := books_eq hbooks
      have hun₁ : s₁.Unhelped t := hun.of_tasks htasks
      have hclosed : s₁.pool.acquire = (.closed, s₁.pool) := by
        unfold Pool.acquire
        rw [hpool, hshut]
        rfl
      unfold wake
      dsimp only
      rw [hclosed]
      refine hun₁.failWaiter ?_
      rw [hwaiting]
      exact hmore
  | @joined s₁ t e hbooks ht hun hup hroomless =>
      obtain ⟨htasks, hpool, -, hactive⟩ := books_eq hbooks
      -- the pool has no connection to give, and none can be dialled
      have hnone : s₁.pool.takeIdle = (none, s₁.pool) ∧ s₁.pool.hasCapacity = false := by
        rw [hpool]
        unfold Pool.takeIdle Pool.hasCapacity Pool.hasRoom
        rcases hroomless with hshut | hsize
        · rw [hshut]
          exact ⟨rfl, rfl⟩
        · have hidle : s.pool.idle = [] := by
            refine List.eq_nil_of_length_eq_zero ?_
            omega
          rw [hidle, hsize]
          simp
      unfold wake
      dsimp only
      rw [hnone.1, hnone.2, if_neg Bool.false_ne_true, if_pos (hactive.trans hup)]
      refine ⟨List.append_ne_nil_of_right_ne_nil _ (List.cons_ne_nil _ _), ?_⟩
      intro q hq
      obtain ⟨r, hr, rfl⟩ := List.mem_map.mp hq
      by_cases hrt : r.1 = t
      · rw [if_pos hrt]
        rfl
      · rw [if_neg hrt]
        exact hun.of_tasks htasks r hr hrt

/-- **No step but those that strand leaves anybody.** -/
theorem tended_step_iff (h : Reachable p s) (htended : s.Tended) (ev : Event) :
    (s.step ev).1.Tended ↔ ¬ s.Strands (s.react ev) := by
  constructor
  · intro hnext hstrands
    obtain ⟨hwait, hnobody⟩ := hstrands.leaves h.ledger.balanced.within
    exact hwait (hnext hnobody)
  · intro hsafe
    have hreact : Ledger p True (s.react ev) [] [] :=
      (h.ledger.heed (tended_iff.mp htended)).react ev fun _ => hsafe
    exact tended_iff.mpr (hreact.balanced.tended trivial)

/-- A request believes to be in the queue just where it is. -/
theorem queued_iff (h : Reachable p s) :
    ∀ q ∈ s.tasks, q.2.isQueued = true ↔ q.1 ∈ s.waiting := by
  have hlined := h.ledger.lined
  have hline := hlined.line
  rw [resting_nil_running] at hline
  intro q hq
  rw [hline.mem_iff]
  constructor
  · intro hqueued
    exact List.mem_map_of_mem (List.mem_filter.mpr ⟨hq, hqueued⟩)
  · intro hwaits
    obtain ⟨r, hr, hsame⟩ := List.mem_map.mp hwaits
    obtain ⟨hmem, hqueued⟩ := List.mem_filter.mp hr
    -- numbers tell tasks apart
    rw [← List.inj_on_of_nodup_map hlined.numbered hmem hq hsame]
    exact hqueued

/-- **Who is left waiting.** Whatever events come in whatever order, to a pool of any size: nobody
ever waits while no round trip, dial with room reserved for it, repair or refill is in progress, if
and only if no step strands anybody. Such a step is the failure of a dial in a request, or of a
refill that only the first of several waiters hears of, or a request joins the queue of a pool that
is closed or never has room; each with no other task to see to the queue, and each leaves somebody
there. The queue is always made up of the requests that believe to be in it. -/
theorem nobody_left_waiting (p : Profile) (evs : List Event) :
    ((ofProfile p).StrandsNobody evs ↔
      ∀ before ∈ evs.inits, ((ofProfile p).after before).Tended) ∧
    (∀ before ev rest, evs = before ++ ev :: rest →
      ((ofProfile p).after before).Strands (((ofProfile p).after before).react ev) →
      ((ofProfile p).after (before ++ [ev])).waiting ≠ [] ∧
        ∀ q ∈ ((ofProfile p).after (before ++ [ev])).tasks, q.2.helps = false) ∧
    (∀ q ∈ ((ofProfile p).after evs).tasks,
      q.2.isQueued = true ↔ q.1 ∈ ((ofProfile p).after evs).waiting) := by
  have hreachable : ∀ evs, Reachable p ((ofProfile p).after evs) := fun evs =>
    Reachable.initial.after evs
  refine ⟨⟨?_, ?_⟩, ?_, queued_iff (hreachable evs)⟩
  · intro hnobody before hbefore
    have hinit := (List.mem_inits _ _).mp hbefore
    clear hbefore
    induction before using List.reverseRecOn with
    | nil => exact fun _ => rfl
    | append_singleton before ev ih =>
        obtain ⟨rest, hrest⟩ := hinit
        rw [List.append_assoc] at hrest
        rw [after_concat, tended_step_iff (hreachable before) (ih ⟨_, hrest⟩)]
        exact hnobody before ev rest hrest.symm
  · rintro htended before ev rest rfl
    have hnow := htended before ((List.mem_inits _ _).mpr (List.prefix_append _ _))
    have hnext := htended (before ++ [ev]) ((List.mem_inits _ _).mpr ⟨rest, by simp⟩)
    rw [after_concat] at hnext
    exact (tended_step_iff (hreachable before) hnow ev).mp hnext
  · intro before ev rest _ hstrands
    rw [after_concat]
    exact hstrands.leaves (hreachable before).ledger.balanced.within

/-- A host with room for one connection. -/
def soleHost : Profile :=
  { name := "a", address := "10.0.0.1:6379", master := true, poolSize := 1 }

/-- One request has the only connection, and another waits for it. The host closes the connection,
and a new link for it cannot be made; so it is discarded, and a refill dials for the one who waits.
That dial fails, too, and the one who waits is failed with it. -/
def refilled : List Event :=
  [.start 0, .dialed 0 none, .dialed 1 none,
    .execute ⟨0, [71, 65]⟩, .wake 2, .wake 2, .execute ⟨1, [71, 66]⟩, .wake 3, .wake 3, .wake 3,
    .ended 0 .closed, .dialed 2 (some .closedByBackend), .wake 4, .dialed 3 (some .closedByBackend)]

theorem nobody_left_waiting_refilled :
    (ofProfile soleHost).StrandsNobody refilled ∧
      ((ofProfile soleHost).after refilled).waiting = [] ∧
      ((ofProfile soleHost).after refilled).tasks.map (·.1) = [1] := by
  have htended : ∀ before ∈ refilled.inits, ((ofProfile soleHost).after before).Tended := by decide
  exact ⟨(nobody_left_waiting soleHost refilled).1.mpr htended, by decide, by decide⟩

/-! ## What a failed dial leaves behind -/

/-- The only connection was lost and given up while nobody waited. Of two requests that come then,
one dials and the other waits for room; and the dial fails. -/
def stranded : Servant := (ofProfile soleHost).after [.start 0, .dialed 0 none, .dialed 1 none,
  .execute ⟨0, [71, 65]⟩, .wake 2, .wake 2, .ended 0 .closed, .dialed 2 (some .closedByBackend),
  .execute ⟨1, [71, 66]⟩, .wake 3, .wake 3, .execute ⟨2, [71, 67]⟩, .wake 4, .wake 4, .wake 4,
  .dialed 3 (some .closedByBackend)]

/-- The other request waits, although there is room for a connection, and no task is left that would
hand it one or fail it. -/
theorem waits_stranded :
    Reachable soleHost stranded ∧ stranded.waiting = [4] ∧ stranded.pool.hasCapacity = true ∧
      ∀ q ∈ stranded.tasks, q.2.helps = false := by
  refine ⟨?_, by decide, by decide, by decide⟩
  exact Reachable.initial.after _

end Servant

end ShardProxy.Backend
