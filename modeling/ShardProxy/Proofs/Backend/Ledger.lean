import ShardProxy.Proofs.Backend.Books
import ShardProxy.Proofs.Backend.Pool

/-!
# What is in hand

The books of a servant balance also in the midst of a step: what the tasks that run had at stake is
then in the hand of the running code. So every change that a servant makes to itself moves stakes
from one holder to another, or turns one into another, and for each there is a rule.

* `Ledger` — the books, for what is in hand and what the tasks at rest have at stake;
* `Ledger.take`, `Ledger.setTask`, `Ledger.endTask`, `Ledger.spawn` — tasks come and go;
* `Ledger.complete`, `Ledger.failWaiter_refill`, `Ledger.shutdown` — the queue moves.
-/

namespace ShardProxy.Backend

open scoped List

/-- The tasks in `running` have let go of what they had at stake, and the running code has
`hand`. -/
structure Ledger (p : Profile) (heedful : Prop) (s : Servant) (running : List TaskId)
    (hand : List Stake) : Prop where
  lined : Lined s running
  balanced : Balanced p heedful s (hand ++ s.stakes running)

namespace Ledger

variable {p : Profile} {heedful : Prop} {s s' : Servant} {running : List TaskId}
variable {hand hand' : List Stake} {t : TaskId} {task : Task}

/-! ## Changing hands -/

/-- Links, timers and effects are no part of the books. -/
theorem of_books (h : Ledger p heedful s running hand) (hbooks : s'.books = s.books) :
    Ledger p heedful s' running hand := by
  obtain ⟨_, pool, active, _, _, waiting, tasks, _, nextTask, nextLink, _⟩ := s
  obtain ⟨_, pool', active', _, _, waiting', tasks', _, nextTask', nextLink', _⟩ := s'
  simp only [Servant.books, Prod.mk.injEq] at hbooks
  obtain ⟨rfl, rfl, rfl, rfl, rfl, rfl⟩ := hbooks
  obtain ⟨⟨hnumbered, hrecent, hdistinct, hpresent, hline, hserved⟩,
    ⟨hcapacity, hcounted, hwithin, hapart, hknown, howed, htended⟩⟩ := h
  exact ⟨⟨hnumbered, hrecent, hdistinct, hpresent, hline, hserved⟩,
    ⟨hcapacity, hcounted, hwithin, hapart, hknown, howed, htended⟩⟩

/-- A use of the pool. -/
theorem repool {pool : Pool} (h : Ledger p heedful s running hand)
    (hbalanced : Balanced p heedful { s with pool } (hand' ++ s.stakes running)) :
    Ledger p heedful { s with pool } running hand' :=
  ⟨⟨h.lined.numbered, h.lined.recent, h.lined.distinct, h.lined.present, h.lined.line,
    h.lined.served⟩, hbalanced⟩

theorem lend {conn : Conn} {idle : List Conn} (h : Ledger p heedful s running hand)
    (hidle : s.pool.idle = conn :: idle) :
    Ledger p heedful { s with pool := { s.pool with idle, active := s.pool.active + 1 } } running
      (.lent conn :: hand) :=
  h.repool (h.balanced.lend hidle)

theorem reserve (h : Ledger p heedful s running hand) (hroom : s.pool.hasRoom = true) :
    Ledger p heedful { s with pool := { s.pool with active := s.pool.active + 1 } } running
      (.room :: hand) :=
  h.repool (h.balanced.reserve hroom)

theorem spend {a : Stake} (h : Ledger p heedful s running (a :: hand)) (ha : a.counts = true) :
    Ledger p heedful { s with pool := { s.pool with active := s.pool.active - 1 } } running
      (.refill :: hand) :=
  h.repool (h.balanced.spend ha)

theorem trade (olds news : List Stake) (h : Ledger p heedful s running (olds ++ hand))
    (hcounts : news.countP Stake.counts = olds.countP Stake.counts)
    (hids : news.filterMap Stake.id? = olds.filterMap Stake.id?) (howes : .refill ∉ news)
    (hhelps : ∃ a ∈ news, a.helps = true) : Ledger p heedful s running (news ++ hand) := by
  have hbalanced := h.balanced
  rw [List.append_assoc] at hbalanced
  refine ⟨h.lined, ?_⟩
  rw [List.append_assoc]
  exact hbalanced.trade olds news hcounts hids howes hhelps

theorem dismiss {a : Stake} (h : Ledger p heedful s running (a :: hand)) (ha : a.counts = false)
    (htended : heedful → s.waiting ≠ [] → ∃ b ∈ hand ++ s.stakes running, b.helps = true) :
    Ledger p heedful s running hand :=
  ⟨h.lined, h.balanced.dismiss ha htended⟩

/-- A link that was to be a new connection is of no use to the queue. -/
theorem forget {l : LinkId} (h : Ledger p heedful s running (.fresh l :: hand)) :
    Ledger p heedful s running hand := by
  refine h.dismiss rfl fun hheed hwait => ?_
  obtain ⟨a, ha, hhelps⟩ := h.balanced.tended hheed hwait
  rcases List.mem_cons.mp ha with rfl | ha
  · cases hhelps
  · exact ⟨a, ha, hhelps⟩

/-- A task begins to run. -/
theorem take (h : Ledger p heedful s running hand) (ht : (t, task) ∈ s.tasks) (hrest : t ∉ running)
    (hqueued : task.isQueued = false) :
    Ledger p heedful s (t :: running) (task.stakes ++ hand) := by
  refine ⟨h.lined.take ht hrest hqueued, h.balanced.perm ?_⟩
  have htake : s.stakes running ~ task.stakes ++ s.stakes (t :: running) :=
    (resting_take h.lined.numbered ht hrest).flatMap_right _
  rw [List.append_assoc]
  refine (List.perm_append_comm_assoc _ _ _).trans ?_
  exact htake.symm.append_left hand

/-- A running task comes to rest, with what it needs. -/
theorem setTask (task : Task) (h : Ledger p heedful s (t :: running) (task.stakes ++ hand))
    (hqueued : task.isQueued = false) : Ledger p heedful (s.setTask t task) running hand := by
  -- what the running code had in hand is at stake for the task again
  have hrest := (List.nodup_cons.mp h.lined.distinct).1
  have hput : (s.setTask t task).stakes running ~ task.stakes ++ s.stakes (t :: running) :=
    (resting_put h.lined.numbered (h.lined.present t List.mem_cons_self) hrest task).flatMap_right _
  have hbalanced : Balanced p heedful s (hand ++ (s.setTask t task).stakes running) := by
    refine h.balanced.perm ?_
    rw [List.append_assoc]
    exact (hput.append_left hand).trans (List.perm_append_comm_assoc _ _ _)
  exact ⟨h.lined.setTask hqueued, hbalanced.of_pool rfl rfl fun hne => hne⟩

theorem mem_setTask (h : Ledger p heedful s (t :: running) hand) (task : Task) :
    (t, task) ∈ (s.setTask t task).tasks := by
  obtain ⟨q, hq, hqt⟩ := List.mem_map.mp (h.lined.present t List.mem_cons_self)
  refine List.mem_map.mpr ⟨q, hq, ?_⟩
  rw [if_pos hqt]

theorem stakes_endTask (s : Servant) (t : TaskId) (running : List TaskId) :
    (s.endTask t).stakes running = s.stakes (t :: running) :=
  congrArg (List.flatMap _) (resting_filter s.tasks t running)

theorem endTask (h : Ledger p heedful s (t :: running) hand) :
    Ledger p heedful (s.endTask t) running hand := by
  refine ⟨h.lined.endTask, ?_⟩
  rw [stakes_endTask]
  exact h.balanced.of_pool rfl rfl fun hne => hne

theorem spawn (task : Task) (h : Ledger p heedful s running (task.stakes ++ hand))
    (hqueued : task.isQueued = false) : Ledger p heedful (s.spawn task) running hand := by
  have hspawn : (s.spawn task).stakes running = s.stakes running ++ task.stakes := by
    unfold Servant.stakes
    rw [h.lined.resting_spawn, List.flatMap_append, List.flatMap_singleton]
  have hbalanced : Balanced p heedful s (hand ++ (s.spawn task).stakes running) := by
    refine h.balanced.perm ?_
    rw [hspawn, ← List.append_assoc, List.append_assoc task.stakes]
    exact List.perm_append_comm
  exact ⟨h.lined.spawn hqueued, hbalanced.of_pool rfl rfl fun hne => hne⟩

theorem spawn_run (h : Ledger p heedful s running hand) (task : Task) :
    Ledger p heedful (s.spawn task) (s.nextTask :: running) hand := by
  have hsame : (s.spawn task).stakes (s.nextTask :: running) = s.stakes running :=
    congrArg (List.flatMap _) (h.lined.resting_spawn_run task)
  refine ⟨h.lined.spawn_run task, ?_⟩
  rw [hsame]
  exact h.balanced.of_pool rfl rfl fun hne => hne

/-- A servant without a queue may stop to serve. -/
theorem setActive (h : Ledger p heedful s running hand) (active : Bool)
    (hactive : s.waiting ≠ [] → active = true) :
    Ledger p heedful { s with active } running hand :=
  ⟨⟨h.lined.numbered, h.lined.recent, h.lined.distinct, h.lined.present, h.lined.line, hactive⟩,
    h.balanced.of_pool rfl rfl fun hne => hne⟩

theorem dialed (h : Ledger p heedful s running hand) :
    Ledger p heedful { s with nextLink := s.nextLink + 1 } running (.fresh s.nextLink :: hand) :=
  ⟨⟨h.lined.numbered, h.lined.recent, h.lined.distinct, h.lined.present, h.lined.line,
    h.lined.served⟩, h.balanced.dialed⟩

/-! ## The queue moves -/

/-- The oldest waiter leaves the queue to run. -/
theorem pop {w : TaskId} {rest : List TaskId} (h : Ledger p heedful s running hand)
    (hwait : s.waiting = w :: rest) :
    ∃ e, ({ s with waiting := rest } : Servant).task? w = some (.queued e) ∧
      Ledger p heedful { s with waiting := rest } (w :: running) hand := by
  obtain ⟨e, hmem, hrunning, hlined⟩ := h.lined.pop hwait
  have htake : s.stakes running ~ s.stakes (w :: running) :=
    (resting_take h.lined.numbered hmem hrunning).flatMap_right _
  refine ⟨e, lookup_of_mem h.lined.numbered hmem, hlined, ?_⟩
  have hbalanced := h.balanced.perm (htake.symm.append_left hand)
  exact hbalanced.of_pool rfl rfl fun _ => by simp [hwait]

/-- A running task joins the queue of a servant that is active and has somebody to look to. -/
theorem join (h : Ledger p heedful s (t :: running) hand) (hactive : s.active = true)
    (htended : heedful → ∃ a ∈ hand ++ s.stakes (t :: running), a.helps = true) (e : Errand) :
    Ledger p heedful ({ s with waiting := s.waiting ++ [t] }.setTask t (.queued e)) running
      hand := by
  have hrest := (List.nodup_cons.mp h.lined.distinct).1
  have hput : (s.setTask t (.queued e)).stakes running ~ s.stakes (t :: running) :=
    (resting_put h.lined.numbered (h.lined.present t List.mem_cons_self) hrest
      (.queued e)).flatMap_right _
  have hbalanced := h.balanced.perm (hput.append_left hand)
  refine ⟨h.lined.join hactive e, hbalanced.capacity, hbalanced.counted, hbalanced.within,
    hbalanced.apart, hbalanced.known, hbalanced.owed, fun hheed _ => ?_⟩
  obtain ⟨a, ha, hhelps⟩ := htended hheed
  exact ⟨a, (hput.append_left hand).mem_iff.mpr ha, hhelps⟩

theorem books_dropAll (s : Servant) (conns : List Conn) : (s.dropAll conns).books = s.books :=
  List.foldlRecOn conns _ (motive := (Servant.books · = s.books)) rfl fun _ hsame _ _ => hsame

/-- A connection goes to the oldest waiter, and so it stays lent; or back to the pool, and then
nobody waits. -/
theorem complete {conn : Conn} (h : Ledger p heedful s running (.lent conn :: hand)) :
    Ledger p heedful (s.complete conn) running hand := by
  unfold Servant.complete
  split
  · rename_i w rest hwait
    obtain ⟨e, htask, hnext⟩ := h.pop hwait
    dsimp only
    rw [htask]
    have hhanded := hnext.setTask (.handed e conn) rfl
    exact hhanded.of_books rfl
  · rename_i hwait
    exact (h.repool (h.balanced.release hwait)).of_books (books_dropAll _ _)

theorem failWaiter (h : Ledger p heedful s running hand) :
    Ledger p heedful s.failWaiter running hand := by
  unfold Servant.failWaiter
  split
  · exact h
  · rename_i w rest hwait
    obtain ⟨e, htask, hnext⟩ := h.pop hwait
    dsimp only
    rw [htask]
    exact hnext.endTask.of_books rfl

theorem failWaiters (h : Ledger p heedful s running hand) :
    Ledger p heedful s.failWaiters running hand :=
  List.foldlRecOn s.waiting _ (motive := (Ledger p heedful · running hand)) h
    fun _ hbooks _ _ => hbooks.failWaiter

theorem close (h : Ledger p heedful s running hand) :
    Ledger p heedful ({ s with pool := s.pool.close.2 }.dropAll s.pool.close.1) running hand :=
  (h.repool h.balanced.close).of_books (books_dropAll _ _)

end Ledger

namespace Servant

variable (s : Servant)

theorem waiting_failWaiter : s.failWaiter.waiting = s.waiting.tail := by
  unfold failWaiter
  cases hwait : s.waiting with
  | nil => exact hwait
  | cons w rest =>
      dsimp only
      split
      · rfl
      · rfl

theorem waiting_failWaiters : s.failWaiters.waiting = [] := by
  have hdrop : ∀ (waiting : List TaskId) (s : Servant),
      (waiting.foldl (fun s _ => s.failWaiter) s).waiting = s.waiting.drop waiting.length := by
    intro waiting
    induction waiting with
    | nil => exact fun s => rfl
    | cons w waiting ih =>
        intro s
        rw [List.foldl_cons, ih, waiting_failWaiter, List.drop_tail, List.length_cons]
  exact (hdrop s.waiting s).trans List.drop_length

/-- Waiters are failed in the same way whether or not the servant is active. -/
theorem failWaiter_setActive (active : Bool) :
    ({ s with active } : Servant).failWaiter = { s.failWaiter with active } := by
  obtain ⟨_, _, _, _, _, waiting, _, _, _, _, _⟩ := s
  cases waiting with
  | nil => rfl
  | cons w rest =>
      unfold failWaiter task?
      dsimp only
      split
      · rfl
      · rfl

theorem failWaiters_setActive (active : Bool) :
    ({ s with active } : Servant).failWaiters = { s.failWaiters with active } := by
  let set : Servant → Servant := fun s => { s with active }
  exact List.foldl_hom set fun s _ => failWaiter_setActive s active

theorem dropAll_setActive (active : Bool) (conns : List Conn) :
    ({ s with active } : Servant).dropAll conns = { s.dropAll conns with active } := by
  let set : Servant → Servant := fun s => { s with active }
  exact List.foldl_hom set fun _ _ => rfl

end Servant

/-- A refill that fails fails the oldest waiter with it. Only those behind that one need another to
look to. -/
theorem Ledger.failWaiter_refill {p : Profile} {heedful : Prop} {s : Servant}
    {running : List TaskId} {hand : List Stake}
    (h : Ledger p heedful s running (.refill :: hand))
    (htended : heedful → 2 ≤ s.waiting.length → ∃ b ∈ hand ++ s.stakes running, b.helps = true) :
    Ledger p heedful s.failWaiter running hand := by
  by_cases hmore : 2 ≤ s.waiting.length
  · exact (h.dismiss rfl fun hheed _ => htended hheed hmore).failWaiter
  · refine h.failWaiter.dismiss rfl fun _ hwait => ?_
    rw [Servant.waiting_failWaiter] at hwait
    have hlength := List.length_pos_of_ne_nil hwait
    rw [List.length_tail] at hlength
    omega

/-- The queue is emptied by the time that the servant counts as inactive. -/
theorem Ledger.shutdown {p : Profile} {heedful : Prop} {s : Servant} {running : List TaskId}
    {hand : List Stake} (h : Ledger p heedful s running hand) :
    Ledger p heedful s.shutdown running hand := by
  -- the servant is marked first and its waiters are failed last; for the books it is the same the
  -- other way round, and then the queue is empty where it must be
  have hshutdown : s.shutdown =
      { ({ s with pool := s.pool.close.2 }.dropAll s.pool.close.1).failWaiters with
        active := false } := by
    rw [← Servant.failWaiters_setActive, ← Servant.dropAll_setActive]
    rfl
  rw [hshutdown]
  refine h.close.failWaiters.setActive false fun hne => ?_
  exact absurd (Servant.waiting_failWaiters _) hne

end ShardProxy.Backend
