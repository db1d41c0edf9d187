import ShardProxy.Proofs.Backend.Tasks

/-!
# The books of a servant

What the pool counts as active is held by tasks: each connection that it lent by one task, and each
room that it reserved by one. The queue is made up of the queued tasks.

* `Stake` — what a task can hold that concerns the pool or the queue;
* `Lined` — tasks and queue agree; its rules say how tasks come and go;
* `Balanced` — the counters of the pool agree with the stakes there are; its rules say what each use
  of the pool makes of them.
-/

namespace ShardProxy.Backend

open scoped List

/-! ## Stakes -/

inductive Stake where
  /-- A connection that the pool has lent. -/
  | lent (conn : Conn)
  /-- Room that was reserved for a dial. -/
  | room
  /-- A link from which a new connection will be made. -/
  | fresh (l : LinkId)
  /-- The duty to ask the pool on behalf of the queue. -/
  | refill
  deriving DecidableEq, Repr

namespace Stake

/-- The pool counts it as active. -/
def counts : Stake → Bool
  | lent _ | room => true
  | fresh _ | refill => false

/-- The number of the connection that it is or will be. -/
def id? : Stake → Option Nat
  | lent conn => some conn.id
  | fresh l => some l
  | room | refill => none

/-- Whoever holds it will look at the queue when done with it. -/
def helps : Stake → Bool
  | lent _ | room | refill => true
  | fresh _ => false

theorem helps_of_counts {a : Stake} (h : a.counts = true) : a.helps = true := by
  cases a with
  | lent | room => rfl
  | fresh | refill => cases h

end Stake

namespace Task

/-- The connection of the pool that a task has: it was handed to it, or it serves its round trip. -/
def lent? : Task → Option Conn
  | handed _ conn | exchanging _ conn _ | repairing _ conn _ _ => some conn
  | _ => none

/-- Room in the pool is reserved for the dial that the task awaits. -/
def reserves : Task → Bool
  | connecting .. | refillConnecting _ => true
  | _ => false

/-- A round trip, a dial with room reserved for it, a repair or a refill. -/
def helps : Task → Bool
  | handed .. | exchanging .. | repairing .. | connecting .. | refilling
  | refillConnecting _ => true
  | _ => false

def isQueued : Task → Bool
  | queued _ => true
  | _ => false

def stakes : Task → List Stake
  | handed _ conn | exchanging _ conn _ | repairing _ conn _ _ => [.lent conn]
  | connecting _ c | refillConnecting c => [.fresh c.link, .room]
  | opening _ c => [.fresh c.link]
  | refilling => [.refill]
  | entering _ | acquiring _ | lining _ | queued _ | linking .. | watching .. | retrying _ => []

theorem exists_helps {task : Task} : (∃ a ∈ task.stakes, a.helps = true) ↔ task.helps = true := by
  cases task <;> simp [stakes, helps, Stake.helps]

theorem countP_stakes (task : Task) :
    task.stakes.countP Stake.counts =
      task.lent?.toList.length + if task.reserves then 1 else 0 := by
  cases task <;> rfl

theorem stakes_withConnecting {task : Task} {l : LinkId} {x : Exchange} (h : task.link? = some l) :
    (Servant.withConnecting (.authenticating l x) task).stakes = task.stakes := by
  cases task with
  | connecting | refillConnecting | opening =>
      cases h
      rfl
  | _ => rfl

theorem isQueued_withConnecting (c : Connecting) (task : Task) :
    (Servant.withConnecting c task).isQueued = task.isQueued := by
  cases task <;> rfl

end Task

/-- The numbers of the queued tasks. -/
def queue (tasks : List (TaskId × Task)) : List TaskId :=
  (tasks.filter (·.2.isQueued)).map (·.1)

theorem queue_cons_of_not {task : Task} (h : task.isQueued = false) (t : TaskId)
    (tasks : List (TaskId × Task)) : queue ((t, task) :: tasks) = queue tasks := by
  unfold queue
  rw [List.filter_cons_of_neg (by simpa using h)]

theorem queue_cons_queued (t : TaskId) (e : Errand) (tasks : List (TaskId × Task)) :
    queue ((t, .queued e) :: tasks) = t :: queue tasks := rfl

theorem queue_perm {as bs : List (TaskId × Task)} (h : as ~ bs) : queue as ~ queue bs :=
  (h.filter _).map _

namespace Servant

/-- What those tasks have at stake that are not running. -/
def stakes (s : Servant) (running : List TaskId) : List Stake :=
  (resting s.tasks running).flatMap (·.2.stakes)

/-- The part of a servant that its books are about. -/
def books (s : Servant) : List (TaskId × Task) × TaskId × Pool × List TaskId × Bool × LinkId :=
  (s.tasks, s.nextTask, s.pool, s.waiting, s.active, s.nextLink)

end Servant

/-! ## Books -/

/-- The queue is made up of the queued tasks, and only an active servant has one. Those in `running`
are tasks of the servant, each of them once. -/
structure Lined (s : Servant) (running : List TaskId) : Prop where
  numbered : (s.tasks.map (·.1)).Nodup
  recent : ∀ t ∈ s.tasks.map (·.1), t < s.nextTask
  distinct : running.Nodup
  present : ∀ t ∈ running, t ∈ s.tasks.map (·.1)
  line : s.waiting ~ queue (resting s.tasks running)
  served : s.waiting ≠ [] → s.active = true

/-- The counters of the pool agree with the stakes, and only a pool that has lent something is asked
for a refill. Where the servant is `heedful`, those who wait have somebody to look to. -/
structure Balanced (p : Profile) (heedful : Prop) (s : Servant) (stakes : List Stake) : Prop where
  capacity : s.pool.capacity = p.poolSize
  counted : s.pool.active = stakes.countP Stake.counts
  within : s.pool.active + s.pool.idle.length ≤ s.pool.capacity
  apart : (s.pool.idle.map Conn.id ++ stakes.filterMap Stake.id?).Nodup
  known : ∀ i ∈ s.pool.idle.map Conn.id ++ stakes.filterMap Stake.id?, i < s.nextLink
  owed : .refill ∈ stakes → 0 < s.pool.capacity
  tended : heedful → s.waiting ≠ [] → ∃ a ∈ stakes, a.helps = true

namespace Balanced

variable {p : Profile} {heedful : Prop} {s s' : Servant} {stakes stakes' : List Stake}

theorem perm (h : Balanced p heedful s stakes) (hperm : stakes' ~ stakes) :
    Balanced p heedful s stakes' := by
  have hids : s.pool.idle.map Conn.id ++ stakes'.filterMap Stake.id? ~
      s.pool.idle.map Conn.id ++ stakes.filterMap Stake.id? := (hperm.filterMap _).append_left _
  refine ⟨h.capacity, ?_, h.within, hids.nodup_iff.mpr h.apart, ?_,
    fun howed => h.owed (hperm.mem_iff.mp howed), ?_⟩
  · rw [hperm.countP_eq]
    exact h.counted
  · intro i hi
    exact h.known i (hids.mem_iff.mp hi)
  · intro hheed hwait
    obtain ⟨a, ha, hhelps⟩ := h.tended hheed hwait
    exact ⟨a, hperm.mem_iff.mpr ha, hhelps⟩

/-- Heed is more to ask for. -/
theorem heedless (h : Balanced p heedful s stakes) : Balanced p False s stakes :=
  ⟨h.capacity, h.counted, h.within, h.apart, h.known, h.owed, fun hfalse => hfalse.elim⟩

/-- The tasks change, and the queue gets no longer. -/
theorem of_pool (h : Balanced p heedful s stakes) (hpool : s'.pool = s.pool)
    (hnext : s'.nextLink = s.nextLink) (hwait : s'.waiting ≠ [] → s.waiting ≠ []) :
    Balanced p heedful s' stakes := by
  refine ⟨?_, ?_, ?_, ?_, ?_, ?_, fun hheed hne => h.tended hheed (hwait hne)⟩
  · rw [hpool]
    exact h.capacity
  · rw [hpool]
    exact h.counted
  · rw [hpool]
    exact h.within
  · rw [hpool]
    exact h.apart
  · rw [hpool, hnext]
    exact h.known
  · rw [hpool]
    exact h.owed

/-- Where nothing is idle and no room is left, somebody has what the pool counts, unless it never
has room. -/
theorem tended_of_full (h : Balanced p heedful s stakes) (hsize : 0 < s.pool.capacity)
    (hidle : s.pool.idle = []) (hfull : s.pool.hasRoom = false) :
    ∃ a ∈ stakes, a.helps = true := by
  unfold Pool.hasRoom at hfull
  rw [hidle, List.length_nil] at hfull
  have hless := of_decide_eq_false hfull
  have hactive : 0 < stakes.countP Stake.counts := by
    rw [← h.counted]
    omega
  obtain ⟨a, ha, hcounts⟩ := List.countP_pos_iff.mp hactive
  exact ⟨a, ha, Stake.helps_of_counts hcounts⟩

/-- Stakes become others that count and are numbered like them. -/
theorem trade (olds news : List Stake) (h : Balanced p heedful s (olds ++ stakes))
    (hcounts : news.countP Stake.counts = olds.countP Stake.counts)
    (hids : news.filterMap Stake.id? = olds.filterMap Stake.id?) (howes : .refill ∉ news)
    (hhelps : ∃ a ∈ news, a.helps = true) : Balanced p heedful s (news ++ stakes) := by
  have hsame : (news ++ stakes).filterMap Stake.id? = (olds ++ stakes).filterMap Stake.id? := by
    rw [List.filterMap_append, List.filterMap_append, hids]
  refine ⟨h.capacity, ?_, h.within, ?_, ?_, fun howed => ?_, fun _ _ => ?_⟩
  · rw [List.countP_append, hcounts, ← List.countP_append]
    exact h.counted
  · rw [hsame]
    exact h.apart
  · rw [hsame]
    exact h.known
  · exact h.owed (List.mem_append_right _ ((List.mem_append.mp howed).resolve_left howes))
  · obtain ⟨a, ha, hhelp⟩ := hhelps
    exact ⟨a, List.mem_append_left _ ha, hhelp⟩

/-- A stake that does not count is given up. -/
theorem dismiss {a : Stake} (h : Balanced p heedful s (a :: stakes)) (ha : a.counts = false)
    (htended : heedful → s.waiting ≠ [] → ∃ b ∈ stakes, b.helps = true) :
    Balanced p heedful s stakes := by
  have hsub : (s.pool.idle.map Conn.id ++ stakes.filterMap Stake.id?).Sublist
      (s.pool.idle.map Conn.id ++ (a :: stakes).filterMap Stake.id?) :=
    ((List.sublist_cons_self a stakes).filterMap _).append_left _
  refine ⟨h.capacity, ?_, h.within, h.apart.sublist hsub, fun i hi => h.known i (hsub.subset hi),
    fun howed => h.owed (List.mem_cons_of_mem a howed), htended⟩
  rw [h.counted]
  exact List.countP_cons_of_neg (by simpa using ha)

/-- An idle connection is lent. -/
theorem lend {conn : Conn} {idle : List Conn} (h : Balanced p heedful s stakes)
    (hidle : s.pool.idle = conn :: idle) :
    Balanced p heedful { s with pool := { s.pool with idle, active := s.pool.active + 1 } }
      (.lent conn :: stakes) := by
  have hwithin := h.within
  have hids : idle.map Conn.id ++ (Stake.lent conn :: stakes).filterMap Stake.id? ~
      s.pool.idle.map Conn.id ++ stakes.filterMap Stake.id? := by
    rw [hidle]
    exact List.perm_middle
  refine ⟨h.capacity, ?_, ?_, hids.nodup_iff.mpr h.apart, ?_,
    fun howed => h.owed ((List.mem_cons.mp howed).resolve_left nofun), fun _ _ => ?_⟩
  · rw [List.countP_cons_of_pos rfl]
    exact congrArg (· + 1) h.counted
  · show s.pool.active + 1 + idle.length ≤ s.pool.capacity
    rw [hidle, List.length_cons] at hwithin
    omega
  · intro i hi
    exact h.known i (hids.mem_iff.mp hi)
  · exact ⟨.lent conn, List.mem_cons_self, rfl⟩

/-- Room is reserved. -/
theorem reserve (h : Balanced p heedful s stakes) (hroom : s.pool.hasRoom = true) :
    Balanced p heedful { s with pool := { s.pool with active := s.pool.active + 1 } }
      (.room :: stakes) := by
  refine ⟨h.capacity, ?_, ?_, h.apart, h.known,
    fun howed => h.owed ((List.mem_cons.mp howed).resolve_left nofun),
    fun _ _ => ⟨.room, List.mem_cons_self, rfl⟩⟩
  · rw [List.countP_cons_of_pos rfl]
    exact congrArg (· + 1) h.counted
  · show s.pool.active + 1 + s.pool.idle.length ≤ s.pool.capacity
    unfold Pool.hasRoom at hroom
    have hless := of_decide_eq_true hroom
    omega

/-- Something that counts is gone; whoever held it may owe the queue a look at the pool. -/
theorem spend {a : Stake} (h : Balanced p heedful s (a :: stakes)) (ha : a.counts = true) :
    Balanced p heedful { s with pool := { s.pool with active := s.pool.active - 1 } }
      (.refill :: stakes) := by
  have hcounted := h.counted
  have hwithin := h.within
  rw [List.countP_cons_of_pos ha] at hcounted
  have hsub : (s.pool.idle.map Conn.id ++ stakes.filterMap Stake.id?).Sublist
      (s.pool.idle.map Conn.id ++ (a :: stakes).filterMap Stake.id?) :=
    ((List.sublist_cons_self a stakes).filterMap _).append_left _
  refine ⟨h.capacity, ?_, ?_, h.apart.sublist hsub, fun i hi => h.known i (hsub.subset hi),
    fun _ => ?_, fun _ _ => ⟨.refill, List.mem_cons_self, rfl⟩⟩
  · show s.pool.active - 1 = _
    rw [List.countP_cons_of_neg (by decide), hcounted, Nat.add_sub_cancel]
  · show s.pool.active - 1 + s.pool.idle.length ≤ s.pool.capacity
    omega
  · show 0 < s.pool.capacity
    omega

/-- The pool keeps a connection that was not in it, if it fits. -/
theorem keep (conn : Conn) (h : Balanced p heedful s (.fresh conn.id :: stakes)) :
    Balanced p heedful { s with pool := (s.pool.keep conn).2 } stakes := by
  have hwaits : heedful → s.waiting ≠ [] → ∃ b ∈ stakes, b.helps = true := by
    intro hheed hne
    obtain ⟨a, ha, hhelps⟩ := h.tended hheed hne
    rcases List.mem_cons.mp ha with rfl | ha
    · cases hhelps
    · exact ⟨a, ha, hhelps⟩
  have hrest := h.dismiss rfl hwaits
  unfold Pool.keep
  split
  · rename_i hroom
    unfold Pool.hasRoom at hroom
    have hless := of_decide_eq_true hroom
    have hids : (conn :: s.pool.idle).map Conn.id ++ stakes.filterMap Stake.id? ~
        s.pool.idle.map Conn.id ++ (Stake.fresh conn.id :: stakes).filterMap Stake.id? :=
      List.perm_middle.symm
    refine ⟨h.capacity, hrest.counted, ?_, hids.nodup_iff.mpr h.apart, ?_, hrest.owed, hwaits⟩
    · show s.pool.active + (s.pool.idle.length + 1) ≤ s.pool.capacity
      omega
    · intro i hi
      exact h.known i (hids.mem_iff.mp hi)
  · exact hrest

/-- A connection that was lent is given back while nobody waits. -/
theorem release {conn : Conn} (h : Balanced p heedful s (.lent conn :: stakes))
    (hwait : s.waiting = []) :
    Balanced p heedful { s with pool := (s.pool.release conn).2 } stakes := by
  have hnobody : ∀ {P : Prop}, heedful → s.waiting ≠ [] → P := fun _ hne => absurd hwait hne
  -- it counts no more, and so it is as good as a connection that was never lent
  have hback : Balanced p heedful { s with pool := { s.pool with active := s.pool.active - 1 } }
      (.fresh conn.id :: stakes) := by
    have hspent := h.spend rfl
    refine ⟨h.capacity, ?_, hspent.within, h.apart, h.known,
      fun _ => hspent.owed List.mem_cons_self, hnobody⟩
    rw [hspent.counted]
    rfl
  unfold Pool.release
  dsimp only
  split
  · exact hback.keep conn
  · exact hback.dismiss rfl hnobody

/-- The first connection of a pool. -/
theorem openWith {l : LinkId} (h : Balanced p heedful s (.fresh l :: stakes)) :
    Balanced p heedful { s with pool := (s.pool.openWith ⟨l, l⟩).2 } stakes := by
  have hopen : Balanced p heedful { s with pool := { s.pool with isOpen := true } }
      (.fresh l :: stakes) :=
    ⟨h.capacity, h.counted, h.within, h.apart, h.known, h.owed, h.tended⟩
  exact hopen.keep ⟨l, l⟩

theorem close (h : Balanced p heedful s stakes) :
    Balanced p heedful { s with pool := s.pool.close.2 } stakes := by
  have hsub : (stakes.filterMap Stake.id?).Sublist
      (s.pool.idle.map Conn.id ++ stakes.filterMap Stake.id?) := List.sublist_append_right _ _
  refine ⟨h.capacity, h.counted, ?_, h.apart.sublist hsub, fun i hi => h.known i (hsub.subset hi),
    h.owed, h.tended⟩
  exact Nat.le_trans (Nat.le_add_right _ _) h.within

/-- A link is dialled from which a connection will be made. -/
theorem dialed (h : Balanced p heedful s stakes) :
    Balanced p heedful { s with nextLink := s.nextLink + 1 } (.fresh s.nextLink :: stakes) := by
  have hids : s.pool.idle.map Conn.id ++ (Stake.fresh s.nextLink :: stakes).filterMap Stake.id? ~
      s.nextLink :: (s.pool.idle.map Conn.id ++ stakes.filterMap Stake.id?) := List.perm_middle
  refine ⟨h.capacity, h.counted, h.within, ?_, ?_,
    fun howed => h.owed ((List.mem_cons.mp howed).resolve_left nofun), fun hheed hne => ?_⟩
  · refine hids.nodup_iff.mpr (List.nodup_cons.mpr ⟨fun hmem => ?_, h.apart⟩)
    exact Nat.lt_irrefl _ (h.known _ hmem)
  · intro i hi
    show i < s.nextLink + 1
    rcases List.mem_cons.mp (hids.mem_iff.mp hi) with rfl | hold
    · exact Nat.lt_succ_self _
    · exact Nat.lt_succ_of_lt (h.known i hold)
  · obtain ⟨a, ha, hhelps⟩ := h.tended hheed hne
    exact ⟨a, List.mem_cons_of_mem _ ha, hhelps⟩

end Balanced

namespace Lined

variable {s : Servant} {running : List TaskId} {t : TaskId} {task : Task}

theorem fresh (h : Lined s running) : s.nextTask ∉ s.tasks.map (·.1) := by
  intro hmem
  exact Nat.lt_irrefl _ (h.recent _ hmem)

theorem fresh_running (h : Lined s running) : s.nextTask ∉ running :=
  fun hmem => h.fresh (h.present _ hmem)

theorem take (h : Lined s running) (ht : (t, task) ∈ s.tasks) (hrest : t ∉ running)
    (hqueued : task.isQueued = false) : Lined s (t :: running) := by
  refine ⟨h.numbered, h.recent, List.nodup_cons.mpr ⟨hrest, h.distinct⟩, ?_, ?_, h.served⟩
  · intro u hu
    rcases List.mem_cons.mp hu with rfl | hu
    · exact List.mem_map_of_mem ht
    · exact h.present u hu
  · rw [← queue_cons_of_not hqueued t]
    exact h.line.trans (queue_perm (resting_take h.numbered ht hrest))

/-- A running task comes to rest, not in the queue. -/
theorem setTask (h : Lined s (t :: running)) (hqueued : task.isQueued = false) :
    Lined (s.setTask t task) running := by
  have hrest := (List.nodup_cons.mp h.distinct).1
  have hnumbers : (s.setTask t task).tasks.map (·.1) = s.tasks.map (·.1) :=
    map_fst_set s.tasks t task
  refine ⟨?_, ?_, (List.nodup_cons.mp h.distinct).2, ?_, ?_, h.served⟩
  · rw [hnumbers]
    exact h.numbered
  · rw [hnumbers]
    exact h.recent
  · intro u hu
    rw [hnumbers]
    exact h.present u (List.mem_cons_of_mem t hu)
  · have hput := queue_perm
      (resting_put h.numbered (h.present t List.mem_cons_self) hrest task)
    rw [queue_cons_of_not hqueued] at hput
    exact h.line.trans hput.symm

theorem endTask (h : Lined s (t :: running)) : Lined (s.endTask t) running := by
  obtain ⟨hrest, hdistinct⟩ := List.nodup_cons.mp h.distinct
  have hsub : ((s.endTask t).tasks.map (·.1)).Sublist (s.tasks.map (·.1)) :=
    List.filter_sublist.map _
  refine ⟨h.numbered.sublist hsub, fun u hu => h.recent u (hsub.subset hu), hdistinct, ?_, ?_,
    h.served⟩
  · intro u hu
    obtain ⟨q, hq, rfl⟩ := List.mem_map.mp (h.present u (List.mem_cons_of_mem t hu))
    have hne : q.1 ≠ t := fun heq => hrest (heq ▸ hu)
    exact List.mem_map_of_mem (List.mem_filter.mpr ⟨hq, by simpa using hne⟩)
  · show s.waiting ~ queue (resting (s.tasks.filter (·.1 != t)) running)
    rw [resting_filter]
    exact h.line

/-- A new task is numbered like no other. -/
theorem spawn_numbers (h : Lined s running) (task : Task) :
    ((s.spawn task).tasks.map (·.1)).Nodup ∧
      ∀ t ∈ (s.spawn task).tasks.map (·.1), t < (s.spawn task).nextTask := by
  have hnumbers : (s.spawn task).tasks.map (·.1) = s.tasks.map (·.1) ++ [s.nextTask] :=
    List.map_append
  rw [hnumbers]
  constructor
  · rw [← List.concat_eq_append]
    exact h.numbered.concat h.fresh
  · intro t ht
    show t < s.nextTask + 1
    rcases List.mem_append.mp ht with hold | hnew
    · exact Nat.lt_succ_of_lt (h.recent t hold)
    · rw [List.mem_singleton.mp hnew]
      exact Nat.lt_succ_self s.nextTask

theorem resting_spawn (h : Lined s running) (task : Task) :
    resting (s.spawn task).tasks running = resting s.tasks running ++ [(s.nextTask, task)] := by
  show resting (s.tasks ++ [(s.nextTask, task)]) running = _
  rw [resting_append]
  congr 1
  exact List.filter_cons_of_pos (by simpa using h.fresh_running)

theorem resting_spawn_run (h : Lined s running) (task : Task) :
    resting (s.spawn task).tasks (s.nextTask :: running) = resting s.tasks running := by
  show resting (s.tasks ++ [(s.nextTask, task)]) (s.nextTask :: running) = _
  rw [resting_append, resting_of_absent h.fresh]
  refine (congrArg _ ?_).trans (List.append_nil _)
  exact List.filter_cons_of_neg (by simp)

theorem spawn (h : Lined s running) (hqueued : task.isQueued = false) :
    Lined (s.spawn task) running := by
  obtain ⟨hnumbered, hrecent⟩ := h.spawn_numbers task
  refine ⟨hnumbered, hrecent, h.distinct, ?_, ?_, h.served⟩
  · intro u hu
    show u ∈ (s.tasks ++ [(s.nextTask, task)]).map (·.1)
    rw [List.map_append]
    exact List.mem_append_left _ (h.present u hu)
  · rw [h.resting_spawn]
    have hline :=
      queue_perm (List.perm_append_singleton (s.nextTask, task) (resting s.tasks running))
    rw [queue_cons_of_not hqueued] at hline
    exact h.line.trans hline.symm

/-- A new task that runs at once. -/
theorem spawn_run (h : Lined s running) (task : Task) :
    Lined (s.spawn task) (s.nextTask :: running) := by
  obtain ⟨hnumbered, hrecent⟩ := h.spawn_numbers task
  refine ⟨hnumbered, hrecent, List.nodup_cons.mpr ⟨h.fresh_running, h.distinct⟩, ?_, ?_, h.served⟩
  · intro u hu
    show u ∈ (s.tasks ++ [(s.nextTask, task)]).map (·.1)
    rw [List.map_append]
    rcases List.mem_cons.mp hu with rfl | hu
    · exact List.mem_append_right _ List.mem_cons_self
    · exact List.mem_append_left _ (h.present u hu)
  · rw [h.resting_spawn_run]
    exact h.line

/-- The oldest waiter is a queued task, and leaves the queue to run. -/
theorem pop {w : TaskId} {rest : List TaskId} (h : Lined s running)
    (hwait : s.waiting = w :: rest) :
    ∃ e, (w, .queued e) ∈ s.tasks ∧ w ∉ running ∧
      Lined { s with waiting := rest } (w :: running) := by
  have hline := h.line
  rw [hwait] at hline
  obtain ⟨q, hq, hqw⟩ := List.mem_map.mp (hline.subset List.mem_cons_self)
  obtain ⟨w', task⟩ := q
  cases hqw
  obtain ⟨hrest, hqueued⟩ := List.mem_filter.mp hq
  obtain ⟨hmem, hrunning⟩ := mem_resting.mp hrest
  cases task with
  | queued e =>
      refine ⟨e, hmem, hrunning, h.numbered, h.recent, List.nodup_cons.mpr ⟨hrunning, h.distinct⟩,
        ?_, ?_, fun _ => h.served (by simp [hwait])⟩
      · intro u hu
        rcases List.mem_cons.mp hu with rfl | hu
        · exact List.mem_map_of_mem hmem
        · exact h.present u hu
      · have htake := queue_perm (resting_take h.numbered hmem hrunning)
        rw [queue_cons_queued] at htake
        exact (hline.trans htake).cons_inv
  | _ => cases hqueued

/-- A running task joins the queue. -/
theorem join (h : Lined s (t :: running)) (hactive : s.active = true) (e : Errand) :
    Lined ({ s with waiting := s.waiting ++ [t] }.setTask t (.queued e)) running := by
  have hrest := (List.nodup_cons.mp h.distinct).1
  have hnumbers : (s.tasks.map fun q => if q.1 = t then (t, Task.queued e) else q).map (·.1) =
      s.tasks.map (·.1) := map_fst_set s.tasks t _
  refine ⟨?_, ?_, (List.nodup_cons.mp h.distinct).2, ?_, ?_, fun _ => hactive⟩
  · exact hnumbers.symm ▸ h.numbered
  · exact hnumbers.symm ▸ h.recent
  · intro u hu
    exact hnumbers.symm ▸ h.present u (List.mem_cons_of_mem t hu)
  · have hput := queue_perm
      (resting_put h.numbered (h.present t List.mem_cons_self) hrest (.queued e))
    rw [queue_cons_queued] at hput
    exact (List.perm_append_singleton t s.waiting).trans ((h.line.cons t).trans hput.symm)

end Lined

end ShardProxy.Backend
