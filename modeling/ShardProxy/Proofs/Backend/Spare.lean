import ShardProxy.Proofs.Backend.Bookkeeping

/-!
# A count that never runs out

The count of active connections stops at zero: it would hide a connection that is given back twice.
To see that this never happens, a servant is compared with one whose pool has one more connection in
use, and room for it. As long as the count is positive whenever it goes down, the two do the same in
every step; but to count down from zero keeps one at zero and takes the other there.

* `Pool.spare_discard` — to count down says whether the count was zero;
* `Servant.react_spare` — a step that never counts down from zero is the same with a spare.
-/

namespace ShardProxy.Backend

/-- The pool with one more connection in use, and room for it. -/
def Pool.spare (p : Pool) : Pool := { p with active := p.active + 1, capacity := p.capacity + 1 }

def Servant.spare (s : Servant) : Servant := { s with pool := s.pool.spare }

/-- The pool counts what the task has. -/
def Task.counts (task : Task) : Bool := task.lent?.isSome || task.reserves

namespace Pool

/-- With and without a spare, the count goes down in the same way unless it is zero. -/
theorem spare_discard (p : Pool) : p.spare.discard = p.discard.spare ↔ 0 < p.active := by
  unfold spare discard
  rw [Pool.mk.injEq]
  constructor
  · rintro ⟨_, _, hactive, _⟩
    have hdown : p.active + 1 - 1 = p.active - 1 + 1 := hactive
    omega
  · intro hpos
    refine ⟨rfl, rfl, ?_, rfl⟩
    show p.active + 1 - 1 = p.active - 1 + 1
    omega

variable (p : Pool)

theorem hasRoom_spare : p.spare.hasRoom = p.hasRoom := by
  unfold hasRoom spare
  rw [decide_eq_decide]
  dsimp only
  omega

theorem hasCapacity_spare : p.spare.hasCapacity = p.hasCapacity := by
  unfold hasCapacity
  rw [hasRoom_spare]
  rfl

theorem keep_spare (conn : Conn) :
    p.spare.keep conn = ((p.keep conn).1, (p.keep conn).2.spare) := by
  unfold keep
  rw [hasRoom_spare]
  split
  · rfl
  · rfl

theorem release_spare (h : 0 < p.active) (conn : Conn) :
    p.spare.release conn = ((p.release conn).1, (p.release conn).2.spare) := by
  have hdown : p.spare.discard = p.discard.spare := p.spare_discard.mpr h
  unfold release
  show (if p.spare.discard.isOpen then p.spare.discard.keep conn
    else (some conn, p.spare.discard)) = _
  rw [hdown, keep_spare]
  by_cases hopen : p.isOpen = true
  · have hopen' : p.discard.spare.isOpen = true := hopen
    rw [if_pos hopen', if_pos hopen]
    rfl
  · have hopen' : ¬ p.discard.spare.isOpen = true := hopen
    rw [if_neg hopen', if_neg hopen]
    rfl

theorem openWith_spare (conn : Conn) :
    p.spare.openWith conn = ((p.openWith conn).1, (p.openWith conn).2.spare) :=
  keep_spare { p with isOpen := true } conn

theorem acquire_spare : p.spare.acquire = (p.acquire.1, p.acquire.2.spare) := by
  have hroom := p.hasRoom_spare
  obtain ⟨capacity, idle, active, isOpen⟩ := p
  unfold acquire
  rw [hroom]
  cases isOpen with
  | false => rfl
  | true =>
      cases idle with
      | cons conn idle => rfl
      | nil =>
          -- the spare one takes the room that comes with it
          cases hasRoom { capacity, active, isOpen := true } with
          | true => rfl
          | false => rfl

theorem takeIdle_spare : p.spare.takeIdle = (p.takeIdle.1, p.takeIdle.2.spare) := by
  obtain ⟨capacity, idle, active, isOpen⟩ := p
  cases isOpen with
  | false => rfl
  | true =>
      cases idle with
      | cons conn idle => rfl
      | nil => rfl

end Pool

namespace Servant

variable (s : Servant) (t : TaskId)

theorem dropAll_spare (conns : List Conn) : s.spare.dropAll conns = (s.dropAll conns).spare :=
  List.foldl_hom spare fun _ _ => rfl

theorem complete_of_nobody (h : s.waiting = []) (conn : Conn) :
    s.complete conn =
      { s with pool := (s.pool.release conn).2 }.dropAll (s.pool.release conn).1.toList := by
  unfold complete
  split
  · rename_i hwait
    rw [h] at hwait
    cases hwait
  · rfl

theorem complete_spare (h : 0 < s.pool.active) (conn : Conn) :
    s.spare.complete conn = (s.complete conn).spare := by
  cases hwait : s.waiting with
  | nil =>
      have hrelease : s.spare.pool.release conn =
          ((s.pool.release conn).1, (s.pool.release conn).2.spare) := s.pool.release_spare h conn
      rw [complete_of_nobody s hwait, complete_of_nobody s.spare hwait, hrelease]
      exact dropAll_spare { s with pool := (s.pool.release conn).2 } _
  | cons w rest =>
      have hwait' : s.spare.waiting = w :: rest := hwait
      have htask : ({ s with waiting := rest } : Servant).task? w = s.task? w := rfl
      have htask' : ({ s.spare with waiting := rest } : Servant).task? w = s.task? w := rfl
      unfold complete
      rw [hwait, hwait']
      dsimp only
      rw [htask, htask']
      split
      · rfl
      · rfl

theorem failWaiter_spare : s.spare.failWaiter = s.failWaiter.spare := by
  obtain ⟨_, _, _, _, _, waiting, _, _, _, _, _⟩ := s
  cases waiting with
  | nil => rfl
  | cons w rest =>
      unfold failWaiter task?
      dsimp only [spare]
      split
      · rfl
      · rfl

theorem failWaiters_spare : s.spare.failWaiters = s.failWaiters.spare :=
  List.foldl_hom spare fun s _ => failWaiter_spare s

theorem shutdown_spare : s.spare.shutdown = s.shutdown.spare := by
  unfold shutdown
  dsimp only
  rw [← failWaiters_spare, ← dropAll_spare]
  rfl

theorem continueExchange_spare (h : 0 < s.pool.active) (e : Errand) (conn : Conn) (x : Exchange) :
    s.spare.continueExchange t e conn x = (s.continueExchange t e conn x).spare := by
  unfold continueExchange
  have hlink : s.spare.link? conn.link = s.link? conn.link := rfl
  rw [hlink]
  split
  · rfl
  · rename_i link _
    dsimp only
    split
    · rfl
    · have hcomplete := complete_spare (s.setLink conn.link (link.read x).2) h conn
      show ((s.setLink conn.link (link.read x).2).spare.complete conn).answer t e _ = _
      rw [hcomplete]
      rfl
    · rfl

theorem beginExchange_spare (h : 0 < s.pool.active) (e : Errand) (conn : Conn) :
    s.spare.beginExchange t e conn = (s.beginExchange t e conn).spare := by
  unfold beginExchange
  have hlink : s.spare.link? conn.link = s.link? conn.link := rfl
  rw [hlink]
  split
  · rfl
  · let sent := (s.setTask t (.exchanging e conn .start)).emit
      (.send conn.link (some e.id) e.request)
    have htimeout : ∀ ms, sent.spare.profile.timeoutMs = ms → sent.profile.timeoutMs = ms :=
      fun _ hms => hms
    dsimp only
    split
    · rename_i ms hms
      rw [htimeout _ hms]
      exact continueExchange_spare (sent.emit (.alarm t ms)) t h e conn .start
    · rename_i hms
      rw [htimeout _ hms]
      exact continueExchange_spare sent t h e conn .start

theorem retryOrEnd_spare (generation : Nat) :
    s.spare.retryOrEnd t generation = (s.retryOrEnd t generation).spare := by
  show (if s.attempts < s.profile.retryLimit ∧ s.generation = generation then _ else _) = _
  unfold retryOrEnd
  split
  · rfl
  · rfl

theorem reconnect_spare (generation : Nat) :
    s.spare.reconnect generation = (s.reconnect generation).spare :=
  retryOrEnd_spare (s.spawn (.retrying generation)) s.nextTask generation

theorem startSucceeded_spare (origin : Origin) :
    s.spare.startSucceeded t origin = (s.startSucceeded t origin).spare := by
  cases origin with
  | caller call => rfl
  | loop generation => rfl

theorem startFailed_spare (why : Failure) (origin : Origin) :
    s.spare.startFailed t why origin = (s.startFailed t why origin).spare := by
  cases origin with
  | caller call => rfl
  | loop generation => exact retryOrEnd_spare s t generation

theorem continueWatching_spare (link : LinkId) (generation : Nat) :
    s.spare.continueWatching t link generation = (s.continueWatching t link generation).spare := by
  unfold continueWatching
  have hlink : s.spare.link? link = s.link? link := rfl
  rw [hlink]
  split
  · have hshutdown := shutdown_spare ((s.dropLink link).endTask t)
    rw [← reconnect_spare, ← hshutdown]
    rfl
  · rfl

/-! ## Connections in the making -/

variable {task : Task}

theorem connected_spare (h : task.counts = true → 0 < s.pool.active) (l : LinkId) :
    s.spare.connected t l task = (s.connected t l task).spare := by
  cases task with
  | connecting e c => exact beginExchange_spare s t (h rfl) e ⟨l, l⟩
  | repairing e conn why c =>
      have hcomplete := complete_spare (s.dropLink conn.link) (h rfl) { conn with link := l }
      show ((s.dropLink conn.link).spare.complete { conn with link := l }).answer t e _ = _
      rw [hcomplete]
      rfl
  | refillConnecting c => exact complete_spare (s.endTask t) (h rfl) ⟨l, l⟩
  | opening origin c =>
      have hopen : s.spare.pool.openWith ⟨l, l⟩ =
          ((s.pool.openWith ⟨l, l⟩).1, (s.pool.openWith ⟨l, l⟩).2.spare) :=
        s.pool.openWith_spare ⟨l, l⟩
      have hdrop := dropAll_spare { s with pool := (s.pool.openWith ⟨l, l⟩).2 }
        (s.pool.openWith ⟨l, l⟩).1.toList
      unfold connected
      dsimp only
      rw [hopen]
      exact congrArg (Servant.dial · t (.linking origin)) hdrop
  | linking origin c =>
      let started := { s with attempts := 0, active := true }.startSucceeded t origin
      have hstarted : { s.spare with attempts := 0, active := true }.startSucceeded t origin =
          started.spare := startSucceeded_spare { s with attempts := 0, active := true } t origin
      unfold connected
      dsimp only
      rw [hstarted]
      exact continueWatching_spare (started.spawn (.watching l started.generation))
        started.nextTask l started.generation
  | entering | acquiring | lining | queued | handed | exchanging | refilling | watching
  | retrying => rfl

theorem connectFailed_spare (h : task.counts = true → 0 < s.pool.active) (why : Failure) :
    s.spare.connectFailed t why task = (s.connectFailed t why task).spare := by
  cases task with
  | connecting e c =>
      have hdown : s.spare.pool.abandon = s.pool.abandon.spare := s.pool.spare_discard.mpr (h rfl)
      unfold connectFailed
      dsimp only
      rw [hdown]
      rfl
  | repairing e conn cause c =>
      have hdown : s.spare.pool.discard = s.pool.discard.spare := s.pool.spare_discard.mpr (h rfl)
      unfold connectFailed
      dsimp only
      rw [hdown]
      show (if s.waiting.isEmpty = true then _ else _ : Servant).answer t e _ =
        ((if s.waiting.isEmpty = true then _ else _ : Servant).answer t e _).spare
      split
      · rfl
      · rfl
  | refillConnecting c =>
      have hdown : s.spare.pool.abandon = s.pool.abandon.spare := s.pool.spare_discard.mpr (h rfl)
      unfold connectFailed
      dsimp only
      rw [hdown]
      exact failWaiter_spare ({ s with pool := s.pool.abandon }.endTask t)
  | opening origin c => exact startFailed_spare s t why origin
  | linking origin c =>
      have hclose := dropAll_spare { s with pool := s.pool.close.2 } s.pool.close.1
      unfold connectFailed
      dsimp only
      rw [← startFailed_spare, ← hclose]
      rfl
  | entering | acquiring | lining | queued | handed | exchanging | refilling | watching
  | retrying => rfl

theorem continueAuth_spare (h : task.counts = true → 0 < s.pool.active) (l : LinkId)
    (x : Exchange) :
    s.spare.continueAuth t task l x = (s.continueAuth t task l x).spare := by
  unfold continueAuth
  have hlink : s.spare.link? l = s.link? l := rfl
  rw [hlink]
  split
  · rfl
  · rename_i link _
    dsimp only
    split
    · rfl
    · exact connectFailed_spare ((s.setLink l (link.read x).2).dropLink l) t h _
    · rename_i bytes _
      let heard := s.setLink l (link.read x).2
      have hvet : ∀ why, heard.spare.profile.vet bytes = why → heard.profile.vet bytes = why :=
        fun _ hwhy => hwhy
      split
      · rename_i hwhy
        rw [hvet _ hwhy]
        exact connected_spare heard t h l
      · rename_i why hwhy
        rw [hvet _ hwhy]
        exact connectFailed_spare (heard.dropLink l) t h why

theorem dialSucceeded_spare (h : task.counts = true → 0 < s.pool.active) (l : LinkId) :
    s.spare.dialSucceeded t task l = (s.dialSucceeded t task l).spare := by
  let linked := { s with links := s.links ++ [(l, Link.quiet)] }
  have hpassword : ∀ password,
      linked.spare.profile.password = password → linked.profile.password = password :=
    fun _ hword => hword
  unfold dialSucceeded
  dsimp only
  split
  · rename_i hword
    rw [hpassword _ hword]
    exact connected_spare linked t h l
  · rename_i password hword
    rw [hpassword _ hword]
    exact continueAuth_spare (linked.emit (.send l none (Profile.authRequest password))) t h l
      .start

/-! ## Steps -/

theorem wake_spare (h : task.counts = true → 0 < s.pool.active) :
    s.spare.wake t task = (s.wake t task).spare := by
  have hacquire : s.spare.pool.acquire = (s.pool.acquire.1, s.pool.acquire.2.spare) :=
    s.pool.acquire_spare
  cases task with
  | entering e =>
      show (if s.active = true then _ else _) = (if s.active = true then _ else _ : Servant).spare
      split
      · rfl
      · rfl
  | acquiring e =>
      unfold wake
      dsimp only
      rw [hacquire]
      rcases s.pool.acquire_cases with ⟨_, hclosed⟩ | ⟨conn, idle, _, hlent⟩ | ⟨_, hreserved⟩ |
        ⟨_, _, hfull⟩
      · rw [hclosed]
        rfl
      · rw [hlent]
        -- the count has just gone up, so it can go down
        exact beginExchange_spare
          { s with pool := { s.pool with idle, active := s.pool.active + 1 } } t
          (Nat.succ_pos _) e conn
      · rw [hreserved]
        rfl
      · rw [hfull]
        rfl
  | lining e =>
      have htake : s.spare.pool.takeIdle = (s.pool.takeIdle.1, s.pool.takeIdle.2.spare) :=
        s.pool.takeIdle_spare
      have hcapacity : s.spare.pool.hasCapacity = s.pool.hasCapacity := s.pool.hasCapacity_spare
      unfold wake
      dsimp only
      rw [htake, hcapacity]
      rcases s.pool.takeIdle_cases with ⟨conn, idle, _, hlent⟩ | ⟨_, hnone⟩
      · rw [hlent]
        exact beginExchange_spare
          { s with pool := { s.pool with idle, active := s.pool.active + 1 } } t
          (Nat.succ_pos _) e conn
      · rw [hnone]
        dsimp only
        split
        · rfl
        · show (if s.active = true then _ else _) =
            (if s.active = true then _ else _ : Servant).spare
          split
          · rfl
          · rfl
  | handed e conn => exact beginExchange_spare s t (h rfl) e conn
  | refilling =>
      unfold wake
      dsimp only
      rw [hacquire]
      rcases s.pool.acquire_cases with ⟨_, hclosed⟩ | ⟨conn, idle, _, hlent⟩ | ⟨_, hreserved⟩ |
        ⟨_, _, hfull⟩
      · rw [hclosed]
        exact failWaiter_spare (s.endTask t)
      · rw [hlent]
        exact complete_spare
          ({ s with pool := { s.pool with idle, active := s.pool.active + 1 } }.endTask t)
          (Nat.succ_pos _) conn
      · rw [hreserved]
        rfl
      · rw [hfull]
        rfl
  | watching link generation =>
      show (if s.generation = generation then s.spare else ((s.dropLink link).endTask t).spare) =
        (if s.generation = generation then s else (s.dropLink link).endTask t : Servant).spare
      split
      · rfl
      · rfl
  | retrying generation =>
      show (if s.generation = generation then s.spare else (s.endTask t).spare) =
        (if s.generation = generation then s else s.endTask t : Servant).spare
      split
      · rfl
      · rfl
  | queued | connecting | exchanging | repairing | refillConnecting | opening | linking => rfl

/-- What the pool counts is there to be counted. -/
def Solvent (s : Servant) : Prop :=
  ∀ q ∈ s.tasks, q.2.counts = true → 0 < s.pool.active

theorem linkMoved_spare (h : s.Solvent) (l : LinkId) :
    s.spare.linkMoved l = (s.linkMoved l).spare := by
  have hreader : s.spare.reader? l = s.reader? l := rfl
  unfold linkMoved
  rw [hreader]
  split
  · rename_i t e conn x hfound
    exact continueExchange_spare s t (h _ (mem_of_reader? hfound).1 rfl) e conn x
  · exact continueWatching_spare s _ _ _
  · rename_i t task _ _ hfound
    split
    · exact continueAuth_spare s t (h _ (mem_of_reader? hfound).1) _ _
    · rfl
  · rfl

theorem signal_spare : s.spare.signal = s.signal.spare :=
  List.foldl_hom spare fun _ _ => rfl

/-- **A step that never counts down from zero is the same with a spare.** -/
theorem react_spare (h : s.Solvent) (ev : Event) : s.spare.react ev = (s.react ev).spare := by
  cases ev with
  | execute e => rfl
  | wake t =>
      have htask : s.spare.task? t = s.task? t := rfl
      unfold react
      dsimp only
      rw [htask]
      split
      · rename_i task hfound
        exact wake_spare s t (h _ (mem_of_task? hfound))
      · rfl
  | dialed l failure =>
      have hreader : s.spare.reader? l = s.reader? l := rfl
      unfold react
      dsimp only
      rw [hreader]
      split
      · rename_i t task hfound
        have hcounts := h _ (mem_of_reader? hfound).1
        split
        · exact dialSucceeded_spare s t hcounts l
        · exact connectFailed_spare s t hcounts _
      · rfl
  | received l bytes =>
      have hlink : s.spare.link? l = s.link? l := rfl
      unfold react
      dsimp only
      rw [hlink]
      split
      · exact linkMoved_spare (s.setLink l _) h l
      · rfl
  | ended l ending =>
      have hlink : s.spare.link? l = s.link? l := rfl
      unfold react
      dsimp only
      rw [hlink]
      split
      · exact linkMoved_spare (s.setLink l _) h l
      · rfl
  | alarm t =>
      have htask : s.spare.task? t = s.task? t := rfl
      unfold react
      dsimp only
      rw [htask]
      split
      · rfl
      · rfl
      · rfl
  | start call => rfl
  | reconnect => exact reconnect_spare s s.generation
  | stop =>
      show ({ s.spare.shutdown with generation := s.generation + 1 } : Servant).signal =
        ({ s.shutdown with generation := s.generation + 1 } : Servant).signal.spare
      rw [shutdown_spare]
      exact signal_spare { s.shutdown with generation := s.generation + 1 }

end Servant

end ShardProxy.Backend
