import ShardProxy.Proofs.Backend.Holdings

/-!
# How a servant stands

Whether a servant is active and whether its pool is open are two flags, set in different places.
Four kinds of task set them: those that open the pool of a servant being started, those that then
make the connection to be watched, those that watch it, and those that wait to reconnect. All other
tasks leave both flags alone, and take up none of these roles.

* `Standing` — the two flags, the generation, and the tasks that have a role;
* `Standing.Turn` — what one event can do to a standing;
* `Standing.turn_step` — every event does one of these things;
* `Standing.generation_of_woken` — a loop that goes on after a stop sees it.
-/

namespace ShardProxy.Backend

/-- What a task does to the standing of its servant. -/
inductive Role where
  | opening (o : Origin)
  | linking (o : Origin)
  | watching (generation : Nat)
  | retrying (generation : Nat)
  deriving DecidableEq, Repr

namespace Role

/-- The servant is being started. -/
def isStarting : Role → Bool
  | opening _ | linking _ => true
  | watching _ | retrying _ => false

/-- The generation that the watch or the reconnect loop belongs to. -/
def generation? : Role → Option Nat
  | opening (.loop g) | linking (.loop g) | watching g | retrying g => some g
  | opening (.caller _) | linking (.caller _) => none

end Role

namespace Task

def role? : Task → Option Role
  | opening o _ => some (.opening o)
  | linking o _ => some (.linking o)
  | watching _ g => some (.watching g)
  | retrying g => some (.retrying g)
  | _ => none

theorem role?_withConnecting (c : Connecting) (task : Task) :
    (Servant.withConnecting c task).role? = task.role? := by
  cases task <;> rfl

end Task

structure Standing where
  active : Bool
  isOpen : Bool
  generation : Nat
  roles : List (TaskId × Role)
  deriving DecidableEq, Repr

def Servant.standing (s : Servant) : Standing where
  active := s.active
  isOpen := s.pool.isOpen
  generation := s.generation
  roles := s.tasks.filterMap fun q => q.2.role?.map (q.1, ·)

namespace Standing

variable {s : Servant} {t : TaskId} {task : Task} {r : Role} {x : TaskId × Role}

theorem mem_roles : x ∈ s.standing.roles ↔ ∃ q ∈ s.tasks, q.2.role? = some x.2 ∧ q.1 = x.1 := by
  unfold Servant.standing
  dsimp only
  rw [List.mem_filterMap]
  refine exists_congr fun q => and_congr_right fun _ => ?_
  rw [Option.map_eq_some_iff]
  constructor
  · rintro ⟨r, hr, rfl⟩
    exact ⟨hr, rfl⟩
  · rintro ⟨hr, hq⟩
    exact ⟨x.2, hr, Prod.ext hq rfl⟩

theorem role_mem (ht : (t, task) ∈ s.tasks) (hr : task.role? = some r) :
    (t, r) ∈ s.standing.roles :=
  mem_roles.mpr ⟨(t, task), ht, hr, rfl⟩

theorem roles_endTask (h : x ∈ (s.endTask t).standing.roles) :
    x ∈ s.standing.roles ∧ x.1 ≠ t := by
  obtain ⟨q, hq, hrole, hqx⟩ := mem_roles.mp h
  obtain ⟨hmem, hne⟩ := List.mem_filter.mp hq
  refine ⟨mem_roles.mpr ⟨q, hmem, hrole, hqx⟩, ?_⟩
  intro hxt
  simp [hqx, hxt] at hne

theorem roles_setTask (h : x ∈ (s.setTask t task).standing.roles) :
    (x ∈ s.standing.roles ∧ x.1 ≠ t) ∨ (task.role? = some x.2 ∧ t = x.1) := by
  obtain ⟨q', hq', hrole, hqx⟩ := mem_roles.mp h
  obtain ⟨q, hq, rfl⟩ := List.mem_map.mp hq'
  by_cases hqt : q.1 = t
  · rw [if_pos hqt] at hrole hqx
    exact .inr ⟨hrole, hqx⟩
  · rw [if_neg hqt] at hrole hqx
    exact .inl ⟨mem_roles.mpr ⟨q, hq, hrole, hqx⟩, hqx ▸ hqt⟩

theorem roles_spawn (h : x ∈ (s.spawn task).standing.roles) :
    x ∈ s.standing.roles ∨ (task.role? = some x.2 ∧ s.nextTask = x.1) := by
  obtain ⟨q, hq, hrole, hqx⟩ := mem_roles.mp h
  rcases List.mem_append.mp hq with hold | hnew
  · exact .inl (mem_roles.mpr ⟨q, hold, hrole, hqx⟩)
  · rw [List.mem_singleton.mp hnew] at hrole hqx
    exact .inr ⟨hrole, hqx⟩

/-! ## What a step may leave behind -/

/-- The flags and the generation are these, and a task has no other role than these. -/
structure Within (σ : Standing) (active isOpen : Bool) (generation : Nat)
    (may : TaskId × Role → Prop) : Prop where
  active : σ.active = active
  isOpen : σ.isOpen = isOpen
  generation : σ.generation = generation
  roles : ∀ x ∈ σ.roles, may x

namespace Within

variable {active isOpen : Bool} {generation : Nat} {may may' : TaskId × Role → Prop}

theorem self (σ : Standing) : σ.Within σ.active σ.isOpen σ.generation (· ∈ σ.roles) :=
  ⟨rfl, rfl, rfl, fun _ hx => hx⟩

theorem mono {σ : Standing} (h : σ.Within active isOpen generation may)
    (hmay : ∀ x, may x → may' x) : σ.Within active isOpen generation may' :=
  ⟨h.active, h.isOpen, h.generation, fun x hx => hmay x (h.roles x hx)⟩

/-- The pool changes, but is as open as it was. -/
theorem repool (h : s.standing.Within active isOpen generation may) {pool : Pool}
    (hpool : pool.isOpen = s.pool.isOpen) :
    ({ s with pool } : Servant).standing.Within active isOpen generation may :=
  ⟨h.active, hpool.trans h.isOpen, h.generation, h.roles⟩

theorem emit (h : s.standing.Within active isOpen generation may) (e : Effect) :
    (s.emit e).standing.Within active isOpen generation may := h

theorem endTask (h : s.standing.Within active isOpen generation may) (t : TaskId) :
    (s.endTask t).standing.Within active isOpen generation fun x => may x ∧ x.1 ≠ t := by
  refine ⟨h.active, h.isOpen, h.generation, ?_⟩
  intro x hx
  obtain ⟨hold, hne⟩ := roles_endTask hx
  exact ⟨h.roles x hold, hne⟩

theorem setTask (h : s.standing.Within active isOpen generation may) (t : TaskId) (task : Task) :
    (s.setTask t task).standing.Within active isOpen generation fun x =>
      (may x ∧ x.1 ≠ t) ∨ (task.role? = some x.2 ∧ t = x.1) := by
  refine ⟨h.active, h.isOpen, h.generation, ?_⟩
  intro x hx
  rcases roles_setTask hx with ⟨hold, hne⟩ | hnew
  · exact .inl ⟨h.roles x hold, hne⟩
  · exact .inr hnew

theorem spawn (h : s.standing.Within active isOpen generation may) (task : Task) :
    (s.spawn task).standing.Within active isOpen generation fun x =>
      may x ∨ (task.role? = some x.2 ∧ s.nextTask = x.1) := by
  refine ⟨h.active, h.isOpen, h.generation, ?_⟩
  intro x hx
  rcases roles_spawn hx with hold | hnew
  · exact .inl (h.roles x hold)
  · exact .inr hnew

/-- A task without a role goes on, or takes up none. -/
theorem setTask_none (h : s.standing.Within active isOpen generation may) {task : Task}
    (hrole : task.role? = none) :
    (s.setTask t task).standing.Within active isOpen generation may := by
  refine (h.setTask t task).mono ?_
  rintro x (⟨hx, -⟩ | ⟨hsome, -⟩)
  · exact hx
  · rw [hrole] at hsome
    cases hsome

theorem spawn_none (h : s.standing.Within active isOpen generation may) {task : Task}
    (hrole : task.role? = none) : (s.spawn task).standing.Within active isOpen generation may := by
  refine (h.spawn task).mono ?_
  rintro x (hx | ⟨hsome, -⟩)
  · exact hx
  · rw [hrole] at hsome
    cases hsome

theorem endTask_le (h : s.standing.Within active isOpen generation may) (t : TaskId) :
    (s.endTask t).standing.Within active isOpen generation may :=
  (h.endTask t).mono fun _ hx => hx.1

/-! ## Tasks that have no role -/

theorem dropAll (h : s.standing.Within active isOpen generation may) (conns : List Conn) :
    (s.dropAll conns).standing.Within active isOpen generation may :=
  List.foldlRecOn conns _
    (motive := fun s : Servant => s.standing.Within active isOpen generation may) h
    fun _ hnow _ _ => hnow

theorem answer (h : s.standing.Within active isOpen generation may) (t : TaskId) (e : Errand)
    (result : Except Failure Bytes) :
    (s.answer t e result).standing.Within active isOpen generation may :=
  h.endTask_le t

theorem dial_none (h : s.standing.Within active isOpen generation may)
    {task : Connecting → Task} (hrole : ∀ c, (task c).role? = none) :
    (s.dial t task).standing.Within active isOpen generation may := by
  have hnext : ({ s with nextLink := s.nextLink + 1 } : Servant).standing.Within active isOpen
      generation may := h
  exact hnext.setTask_none (hrole _)

theorem complete (h : s.standing.Within active isOpen generation may) (conn : Conn) :
    (s.complete conn).standing.Within active isOpen generation may := by
  unfold Servant.complete
  split
  · rename_i waiter rest _
    have hnext : ({ s with waiting := rest } : Servant).standing.Within active isOpen generation
        may := h
    dsimp only
    split
    · exact hnext.setTask_none rfl
    · exact hnext
  · exact (h.repool (Pool.isOpen_release s.pool conn)).dropAll _

theorem failWaiter (h : s.standing.Within active isOpen generation may) :
    s.failWaiter.standing.Within active isOpen generation may := by
  unfold Servant.failWaiter
  split
  · exact h
  · rename_i waiter rest _
    have hnext : ({ s with waiting := rest } : Servant).standing.Within active isOpen generation
        may := h
    dsimp only
    split
    · exact hnext.answer _ _ _
    · exact hnext

theorem failWaiters (h : s.standing.Within active isOpen generation may) :
    s.failWaiters.standing.Within active isOpen generation may :=
  List.foldlRecOn s.waiting _
    (motive := fun s : Servant => s.standing.Within active isOpen generation may) h
    fun _ hnow _ _ => hnow.failWaiter

theorem exchangeFailed (h : s.standing.Within active isOpen generation may) (t : TaskId)
    (e : Errand) (conn : Conn) (why : Failure) :
    (s.exchangeFailed t e conn why).standing.Within active isOpen generation may :=
  h.dial_none fun _ => rfl

theorem continueExchange (h : s.standing.Within active isOpen generation may) (t : TaskId)
    (e : Errand) (conn : Conn) (x : Exchange) :
    (s.continueExchange t e conn x).standing.Within active isOpen generation may := by
  unfold Servant.continueExchange
  split
  · exact h
  · rename_i link _
    have hread : (s.setLink conn.link (link.read x).2).standing.Within active isOpen generation
        may := h
    dsimp only
    split
    · exact hread.setTask_none rfl
    · exact (hread.complete conn).answer _ _ _
    · exact hread.exchangeFailed _ _ _ _

theorem beginExchange (h : s.standing.Within active isOpen generation may) (t : TaskId)
    (e : Errand) (conn : Conn) :
    (s.beginExchange t e conn).standing.Within active isOpen generation may := by
  unfold Servant.beginExchange
  split
  · exact h.exchangeFailed _ _ _ _
  · have hsent : (s.setTask t (.exchanging e conn .start)).standing.Within active isOpen
        generation may := h.setTask_none rfl
    dsimp only
    split
    · exact ((hsent.emit _).emit _).continueExchange _ _ _ _
    · exact (hsent.emit _).continueExchange _ _ _ _

/-! ## Starting, watching and reconnecting -/

/-- Serving stops: the servant is inactive, with a closed pool. -/
theorem shutdown (h : s.standing.Within active isOpen generation may) :
    s.shutdown.standing.Within false false generation may := by
  have hclosed : ({ s with active := false, pool := s.pool.close.2 } : Servant).standing.Within
      false false generation may := ⟨rfl, rfl, h.generation, h.roles⟩
  exact (hclosed.dropAll _).failWaiters

/-- A loop goes on only in the generation in which it began. -/
theorem retryOrEnd (h : s.standing.Within active isOpen generation may) (t : TaskId) (g : Nat) :
    (s.retryOrEnd t g).standing.Within active isOpen generation fun x =>
      (may x ∧ x.1 ≠ t) ∨ (g = generation ∧ x = (t, .retrying g)) := by
  unfold Servant.retryOrEnd
  split
  · rename_i hgoes
    have hsame : g = generation := hgoes.2.symm.trans h.generation
    refine (h.setTask t (.retrying g)).mono ?_
    rintro x (hx | ⟨hrole, htask⟩)
    · exact .inl hx
    · exact .inr ⟨hsame, Prod.ext htask.symm (Option.some.inj hrole).symm⟩
  · exact (h.endTask t).mono fun _ => .inl

theorem reconnect (h : s.standing.Within active isOpen generation may) (g : Nat) :
    (s.reconnect g).standing.Within active isOpen generation fun x =>
      may x ∨ (g = generation ∧ x = (s.nextTask, .retrying g)) := by
  refine ((h.spawn (.retrying g)).retryOrEnd s.nextTask g).mono ?_
  rintro x (⟨hx | ⟨-, hself⟩, hne⟩ | hnew)
  · exact .inl hx
  · exact absurd hself.symm hne
  · exact .inr hnew

theorem begin (h : s.standing.Within active isOpen generation may) (origin : Origin) :
    (s.begin origin).standing.Within active isOpen generation fun x =>
      may x ∨ x = (s.nextTask, .opening origin) := by
  have hnext : ({ s with nextLink := s.nextLink + 1 } : Servant).standing.Within active isOpen
      generation may := h
  refine (hnext.spawn (.opening origin (.dialing s.nextLink))).mono ?_
  rintro x (hx | ⟨hrole, htask⟩)
  · exact .inl hx
  · exact .inr (Prod.ext htask.symm (Option.some.inj hrole).symm)

theorem dial (h : s.standing.Within active isOpen generation may) (t : TaskId)
    {task : Connecting → Task} {r : Role} (hrole : ∀ c, (task c).role? = some r) :
    (s.dial t task).standing.Within active isOpen generation fun x =>
      (may x ∧ x.1 ≠ t) ∨ x = (t, r) := by
  have hnext : ({ s with nextLink := s.nextLink + 1 } : Servant).standing.Within active isOpen
      generation may := h
  refine (hnext.setTask t (task (.dialing s.nextLink))).mono ?_
  rintro x (hx | ⟨hsome, htask⟩)
  · exact .inl hx
  · rw [hrole] at hsome
    exact .inr (Prod.ext htask.symm (Option.some.inj hsome).symm)

theorem startSucceeded (h : s.standing.Within active isOpen generation may) (t : TaskId)
    (origin : Origin) :
    (s.startSucceeded t origin).standing.Within active isOpen generation fun x =>
      may x ∧ x.1 ≠ t := by
  cases origin with
  | caller call => exact h.endTask t
  | loop g => exact h.endTask t

theorem startFailed (h : s.standing.Within active isOpen generation may) (t : TaskId)
    (why : Failure) (origin : Origin) :
    (s.startFailed t why origin).standing.Within active isOpen generation fun x =>
      (may x ∧ x.1 ≠ t) ∨ (origin = .loop generation ∧ x = (t, .retrying generation)) := by
  cases origin with
  | caller call => exact (h.endTask t).mono fun _ => .inl
  | loop g =>
      refine (h.retryOrEnd t g).mono ?_
      rintro x (hx | ⟨rfl, hnew⟩)
      · exact .inl hx
      · exact .inr ⟨rfl, hnew⟩

/-- Either the watched link is up, or its end shuts the servant down. -/
theorem continueWatching (h : s.standing.Within active isOpen generation may) (t : TaskId)
    (link : LinkId) (g : Nat) :
    (s.continueWatching t link g).standing.Within active isOpen generation may ∨
      ∃ n, (s.continueWatching t link g).standing.Within false false generation fun x =>
        (may x ∧ x.1 ≠ t) ∨ (g = generation ∧ x = (n, .retrying g)) := by
  unfold Servant.continueWatching
  split
  · have hgone : ((s.dropLink link).endTask t).standing.Within active isOpen generation
        fun x => may x ∧ x.1 ≠ t := Within.endTask (s := s.dropLink link) h t
    exact .inr ⟨_, hgone.shutdown.reconnect g⟩
  · exact .inl h

/-- A link is watched from now on, unless it has ended already. -/
theorem watch (h : s.standing.Within active isOpen generation may) (link : LinkId) :
    ((s.spawn (.watching link s.generation)).continueWatching s.nextTask link
      s.generation).standing.Within active isOpen generation
        (fun x => may x ∨ x = (s.nextTask, .watching generation)) ∨
    ∃ n, ((s.spawn (.watching link s.generation)).continueWatching s.nextTask link
      s.generation).standing.Within false false generation
        fun x => may x ∨ x = (n, .retrying generation) := by
  have hsame : s.generation = generation := h.generation
  have hspawned := h.spawn (.watching link s.generation)
  rcases hspawned.continueWatching s.nextTask link s.generation with hup | ⟨n, hdown⟩
  · refine .inl (hup.mono ?_)
    rintro x (hx | ⟨hrole, htask⟩)
    · exact .inl hx
    · rw [← hsame]
      exact .inr (Prod.ext htask.symm (Option.some.inj hrole).symm)
  · refine .inr ⟨n, hdown.mono ?_⟩
    rintro x (⟨hx | ⟨-, htask⟩, hne⟩ | ⟨-, hnew⟩)
    · exact .inl hx
    · exact absurd htask.symm hne
    · rw [← hsame]
      exact .inr hnew

/-- A stop shuts the servant down and ends its generation. The tasks have their roles still. -/
theorem stop (h : s.standing.Within active isOpen generation may) :
    (s.react .stop).standing.Within false false (generation + 1) may := by
  have hdown := h.shutdown
  -- to tell the tasks of it changes no role
  refine List.foldlRecOn _ _ (motive := fun s : Servant =>
    s.standing.Within false false (generation + 1) may) ?_ fun _ hnow _ _ => hnow
  exact ⟨hdown.active, hdown.isOpen, congrArg (· + 1) h.generation, hdown.roles⟩

end Within

/-! ## What a step does -/

/-- Both flags and the generation are as before, and no task has taken up a role. -/
abbrev Steady (σ σ' : Standing) : Prop :=
  σ'.Within σ.active σ.isOpen σ.generation (· ∈ σ.roles)

/-- What one event can do to the standing of a servant. Of a task `t` that goes on, no other role
remains than the one that it takes up. -/
inductive Turn (σ : Standing) : Event → Standing → Prop where
  | steady {ev : Event} {σ' : Standing} : σ.Steady σ' → Turn σ ev σ'
  /-- Somebody calls for a start. -/
  | called {call n : Nat} {σ' : Standing} :
      σ'.Within σ.active σ.isOpen σ.generation
        (fun x => x ∈ σ.roles ∨ x = (n, .opening (.caller call))) →
      Turn σ (.start call) σ'
  /-- Somebody sets off a reconnect loop. -/
  | setOff {n : Nat} {σ' : Standing} :
      σ'.Within σ.active σ.isOpen σ.generation
        (fun x => x ∈ σ.roles ∨ x = (n, .retrying σ.generation)) →
      Turn σ .reconnect σ'
  /-- A loop begins its next attempt. -/
  | retried {t : TaskId} {g : Nat} {σ' : Standing} :
      (t, .retrying g) ∈ σ.roles →
      σ'.Within σ.active σ.isOpen σ.generation
        (fun x => (x ∈ σ.roles ∧ x.1 ≠ t) ∨ x = (t, .opening (.loop g))) →
      Turn σ (.alarm t) σ'
  /-- A start has its first connection, and the pool is open. -/
  | opened {ev : Event} {t : TaskId} {o : Origin} {σ' : Standing} :
      (t, .opening o) ∈ σ.roles →
      σ'.Within σ.active true σ.generation
        (fun x => (x ∈ σ.roles ∧ x.1 ≠ t) ∨ x = (t, .linking o)) →
      Turn σ ev σ'
  /-- A start fails for want of its first connection. -/
  | refused {ev : Event} {t : TaskId} {o : Origin} {σ' : Standing} :
      (t, .opening o) ∈ σ.roles →
      σ'.Within σ.active σ.isOpen σ.generation
        (fun x => (x ∈ σ.roles ∧ x.1 ≠ t) ∨
          (o = .loop σ.generation ∧ x = (t, .retrying σ.generation))) →
      Turn σ ev σ'
  /-- A start has its second connection, and the servant is active. -/
  | linked {ev : Event} {t n : TaskId} {o : Origin} {σ' : Standing} :
      (t, .linking o) ∈ σ.roles →
      σ'.Within true σ.isOpen σ.generation
        (fun x => (x ∈ σ.roles ∧ x.1 ≠ t) ∨ x = (n, .watching σ.generation)) →
      Turn σ ev σ'
  /-- A start has its second connection, which has ended already. -/
  | lost {ev : Event} {t n : TaskId} {o : Origin} {σ' : Standing} :
      (t, .linking o) ∈ σ.roles →
      σ'.Within false false σ.generation
        (fun x => (x ∈ σ.roles ∧ x.1 ≠ t) ∨ x = (n, .retrying σ.generation)) →
      Turn σ ev σ'
  /-- A start fails for want of its second connection, and closes the pool. -/
  | unlinked {ev : Event} {t : TaskId} {o : Origin} {σ' : Standing} :
      (t, .linking o) ∈ σ.roles →
      σ'.Within σ.active false σ.generation
        (fun x => (x ∈ σ.roles ∧ x.1 ≠ t) ∨
          (o = .loop σ.generation ∧ x = (t, .retrying σ.generation))) →
      Turn σ ev σ'
  /-- A watched link ends. -/
  | broken {ev : Event} {t n : TaskId} {g : Nat} {σ' : Standing} :
      (t, .watching g) ∈ σ.roles →
      σ'.Within false false σ.generation
        (fun x => (x ∈ σ.roles ∧ x.1 ≠ t) ∨ (g = σ.generation ∧ x = (n, .retrying g))) →
      Turn σ ev σ'
  /-- The servant is stopped. -/
  | stopped {σ' : Standing} :
      σ'.Within false false (σ.generation + 1) (· ∈ σ.roles) → Turn σ .stop σ'

/-- A task that can go on takes up no role. -/
theorem steady_wake (s : Servant) (t : TaskId) (task : Task) :
    s.standing.Steady (s.wake t task).standing := by
  have h : s.standing.Steady s.standing := .self _
  cases task with
  | entering e =>
      unfold Servant.wake
      dsimp only
      split
      · exact h.setTask_none rfl
      · exact h.answer _ _ _
  | acquiring e =>
      have hpool := h.repool (Pool.isOpen_acquire s.pool)
      unfold Servant.wake
      dsimp only
      split
      · exact hpool.answer _ _ _
      · exact hpool.beginExchange _ _ _
      · exact hpool.setTask_none rfl
      · exact hpool.dial_none fun _ => rfl
  | lining e =>
      unfold Servant.wake
      dsimp only
      split
      · rename_i conn pool htaken
        have hpool := Pool.isOpen_takeIdle s.pool
        rw [htaken] at hpool
        exact (h.repool hpool).beginExchange _ _ _
      · split
        · exact h.setTask_none rfl
        · split
          · have hjoined : s.standing.Steady
                ({ s with waiting := s.waiting ++ [t] } : Servant).standing := h
            exact hjoined.setTask_none rfl
          · exact h.answer _ _ _
  | handed e conn => exact h.beginExchange _ _ _
  | refilling =>
      have hpool := h.repool (Pool.isOpen_acquire s.pool)
      unfold Servant.wake
      dsimp only
      split
      · exact (hpool.endTask_le t).failWaiter
      · exact (hpool.endTask_le t).complete _
      · exact hpool.endTask_le t
      · exact hpool.dial_none fun _ => rfl
  | watching link g =>
      unfold Servant.wake
      dsimp only
      split
      · exact h
      · have hdropped : s.standing.Steady (s.dropLink link).standing := h
        exact hdropped.endTask_le t
  | retrying g =>
      unfold Servant.wake
      dsimp only
      split
      · exact h
      · exact h.endTask_le t
  | queued | connecting | exchanging | repairing | refillConnecting | opening | linking =>
      exact h

namespace Turn

variable {σ : Standing} {ev : Event}

/-- A connection is made on behalf of a task. -/
theorem connected (h : σ.Steady s.standing) (hrole : ∀ r, task.role? = some r → (t, r) ∈ σ.roles)
    (l : LinkId) : Turn σ ev (s.connected t l task).standing := by
  cases task with
  | connecting e c => exact .steady (h.beginExchange _ _ _)
  | repairing e conn why c =>
      have hdropped : σ.Steady (s.dropLink conn.link).standing := h
      exact .steady ((hdropped.complete _).answer _ _ _)
  | refillConnecting c => exact .steady ((h.endTask_le t).complete _)
  | opening origin c =>
      have hopen : ({ s with pool := (s.pool.openWith ⟨l, l⟩).2 } : Servant).standing.Within
          σ.active true σ.generation (· ∈ σ.roles) :=
        ⟨h.active, Pool.isOpen_keep _ _, h.generation, h.roles⟩
      exact .opened (hrole _ rfl) ((hopen.dropAll _).dial t fun _ => rfl)
  | linking origin c =>
      have hactive : ({ s with attempts := 0, active := true } : Servant).standing.Within true
          σ.isOpen σ.generation (· ∈ σ.roles) := ⟨rfl, h.isOpen, h.generation, h.roles⟩
      rcases (hactive.startSucceeded t origin).watch l with hup | ⟨n, hdown⟩
      · exact .linked (hrole _ rfl) hup
      · exact .lost (hrole _ rfl) hdown
  | entering | acquiring | lining | queued | handed | exchanging | refilling | watching
  | retrying => exact .steady h

/-- No connection can be made on behalf of a task. -/
theorem connectFailed (h : σ.Steady s.standing)
    (hrole : ∀ r, task.role? = some r → (t, r) ∈ σ.roles) (why : Failure) :
    Turn σ ev (s.connectFailed t why task).standing := by
  cases task with
  | connecting e c =>
      have habandoned : σ.Steady ({ s with pool := s.pool.abandon } : Servant).standing :=
        h.repool rfl
      exact .steady (habandoned.answer _ _ _)
  | repairing e conn cause c =>
      have hdropped : σ.Steady ({ s with pool := s.pool.discard }.dropLink conn.link).standing :=
        h.repool rfl
      unfold Servant.connectFailed
      dsimp only
      split
      · exact .steady (hdropped.answer _ _ _)
      · have hrefilling : σ.Steady
            (({ s with pool := s.pool.discard }.dropLink conn.link).spawn .refilling).standing :=
          hdropped.spawn_none rfl
        exact .steady ((hrefilling.emit _).answer _ _ _)
  | refillConnecting c =>
      have habandoned : σ.Steady ({ s with pool := s.pool.abandon } : Servant).standing :=
        h.repool rfl
      exact .steady (habandoned.endTask_le t).failWaiter
  | opening origin c => exact .refused (hrole _ rfl) (h.startFailed t why origin)
  | linking origin c =>
      have hclosed : ({ s with pool := s.pool.close.2 } : Servant).standing.Within σ.active false
          σ.generation (· ∈ σ.roles) := ⟨h.active, rfl, h.generation, h.roles⟩
      exact .unlinked (hrole _ rfl) ((hclosed.dropAll _).startFailed t why origin)
  | entering | acquiring | lining | queued | handed | exchanging | refilling | watching
  | retrying => exact .steady h

theorem continueAuth (h : σ.Steady s.standing)
    (hrole : ∀ r, task.role? = some r → (t, r) ∈ σ.roles) (l : LinkId) (x : Exchange) :
    Turn σ ev (s.continueAuth t task l x).standing := by
  unfold Servant.continueAuth
  split
  · exact .steady h
  · rename_i link _
    have hread : σ.Steady (s.setLink l (link.read x).2).standing := h
    have hdropped : σ.Steady ((s.setLink l (link.read x).2).dropLink l).standing := h
    dsimp only
    split
    · -- the task goes on in the role that it has
      refine .steady ((hread.setTask t _).mono ?_)
      rintro y (⟨hy, -⟩ | ⟨hy, rfl⟩)
      · exact hy
      · rw [Task.role?_withConnecting] at hy
        exact hrole _ hy
    · exact connectFailed hdropped hrole _
    · split
      · exact connected hread hrole l
      · exact connectFailed hdropped hrole _

theorem dialSucceeded (h : σ.Steady s.standing)
    (hrole : ∀ r, task.role? = some r → (t, r) ∈ σ.roles) (l : LinkId) :
    Turn σ ev (s.dialSucceeded t task l).standing := by
  have hlinked : σ.Steady ({ s with links := s.links ++ [(l, Link.quiet)] } : Servant).standing :=
    h
  unfold Servant.dialSucceeded
  dsimp only
  split
  · exact connected hlinked hrole l
  · exact continueAuth (hlinked.emit _) hrole l _

theorem linkMoved (h : σ.Steady s.standing) (l : LinkId) :
    Turn σ ev (s.linkMoved l).standing := by
  unfold Servant.linkMoved
  split
  · exact .steady (h.continueExchange _ _ _ _)
  · rename_i t link g hreader
    have hwatching := h.roles _ (role_mem (Servant.mem_of_reader? hreader).1 rfl)
    rcases h.continueWatching t link g with hup | ⟨n, hdown⟩
    · exact .steady hup
    · exact .broken hwatching hdown
  · rename_i t task _ _ hreader
    split
    · have htask := (Servant.mem_of_reader? hreader).1
      exact continueAuth h (fun r hr => h.roles _ (role_mem htask hr)) _ _
    · exact .steady h
  · exact .steady h

end Turn

/-- Every event does one of these things. -/
theorem turn_react (s : Servant) (ev : Event) : Turn s.standing ev (s.react ev).standing := by
  have h : s.standing.Steady s.standing := .self _
  unfold Servant.react
  cases ev with
  | execute e => exact .steady (h.spawn_none rfl)
  | wake t =>
      dsimp only
      split
      · exact .steady (steady_wake s t _)
      · exact .steady h
  | dialed l failure =>
      dsimp only
      split
      · rename_i t task hreader
        have hrole : ∀ r, task.role? = some r → (t, r) ∈ s.standing.roles :=
          fun r hr => role_mem (Servant.mem_of_reader? hreader).1 hr
        split
        · exact Turn.dialSucceeded h hrole l
        · exact Turn.connectFailed h hrole _
      · exact .steady h
  | received l bytes =>
      dsimp only
      split
      · exact Turn.linkMoved (s := s.setLink l _) h l
      · exact .steady h
  | ended l ending =>
      dsimp only
      split
      · exact Turn.linkMoved (s := s.setLink l _) h l
      · exact .steady h
  | alarm t =>
      dsimp only
      split
      · exact .steady (h.exchangeFailed _ _ _ _)
      · rename_i g hfound
        have hcounted : s.standing.Steady
            ({ s with attempts := s.attempts + 1 } : Servant).standing := h
        exact .retried (role_mem (Servant.mem_of_task? hfound) rfl)
          (hcounted.dial t fun _ => rfl)
      · exact .steady h
  | start call => exact .called (h.begin _)
  | reconnect =>
      refine .setOff (n := s.nextTask) ((h.reconnect s.generation).mono ?_)
      rintro x (hx | ⟨-, hnew⟩)
      · exact .inl hx
      · exact .inr hnew
  | stop => exact .stopped h.stop

theorem turn_step (s : Servant) (ev : Event) : Turn s.standing ev (s.step ev).1.standing :=
  turn_react s ev

/-- A loop that goes on while it waits is of the present generation: one that was told of a stop is
over. -/
theorem generation_of_woken {g : Nat} (hnumbered : (s.tasks.map (·.1)).Nodup)
    (h : (t, .retrying g) ∈ (s.step (.wake t)).1.standing.roles) : g = s.generation := by
  change (t, .retrying g) ∈ (s.react (.wake t)).standing.roles at h
  unfold Servant.react at h
  dsimp only at h
  have hold : (t, .retrying g) ∈ s.standing.roles := by
    split at h
    · exact (steady_wake s t _).roles _ h
    · exact h
  obtain ⟨⟨u, task⟩, hmem, hrole, rfl⟩ := mem_roles.mp hold
  cases task with
  | retrying g' =>
      cases hrole
      have htask : s.task? u = some (.retrying g) := lookup_of_mem hnumbered hmem
      rw [htask] at h
      by_contra hstale
      unfold Servant.wake at h
      dsimp only at h
      rw [if_neg fun hsame => hstale hsame.symm] at h
      exact (roles_endTask h).2 rfl
  | _ => cases hrole

end Standing

end ShardProxy.Backend
