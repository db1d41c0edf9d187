import ShardProxy.Proofs.Backend.Sound

/-!
# Every step is sound

One rule for each function of a servant: what must be in hand for it, and what is in hand after it.
Each way in which a connection is given back, to the pool or to a waiter, asks for a quiet link;
each way in which a request is sent takes up a quiet link and the right to send it.
-/

namespace ShardProxy.Backend

open scoped List

namespace Sound

variable {p : Profile} {w : Surroundings} {s : Servant} {running : List TaskId}
variable {hand : List Asset} {t : TaskId}

/-! ## Connections that come free -/

/-- Links are dropped with the assets about them. -/
theorem dropAll {conns : List Conn}
    (h : Sound p w s running (conns.map (fun conn => .quiet conn.link) ++ hand)) :
    Sound p w (s.dropAll conns) running hand := by
  unfold Servant.dropAll
  induction conns generalizing s with
  | nil => exact h
  | cons conn conns ih => exact ih (Sound.dropLink h rfl)

/-- A queued task is handed a connection. -/
theorem hand_to {e : Errand} {conn : Conn} (h : Sound p w s running (.quiet conn.link :: hand))
    (ht : (t, .queued e) ∈ s.tasks) : Sound p w (s.setTask t (.handed e conn)) running hand := by
  by_cases hrun : t ∈ running
  · exact (h.mono (List.sublist_cons_self _ _).subperm).note hrun _
  · have hhanded : Sound p w s (t :: running) ((Task.handed e conn).assets ++ hand) :=
      h.take ht hrun
    exact hhanded.setTask

theorem complete {conn : Conn} (h : Sound p w s running (.quiet conn.link :: hand)) :
    Sound p w (s.complete conn) running hand := by
  unfold Servant.complete
  split
  · rename_i waiter rest _
    have hnext : Sound p w { s with waiting := rest } running (.quiet conn.link :: hand) :=
      h.of_same rfl rfl
    dsimp only
    split
    · rename_i e hqueued
      exact (hnext.hand_to (Servant.mem_of_task? hqueued)).emit fun _ => rfl
    · exact hnext.mono (List.sublist_cons_self _ _).subperm
  · refine Sound.dropAll ?_
    exact h.repool [conn] (Pool.idle_release s.pool conn)

theorem failWaiter (h : Sound p w s running hand) : Sound p w s.failWaiter running hand := by
  unfold Servant.failWaiter
  split
  · exact h
  · rename_i waiter rest _
    have hnext : Sound p w { s with waiting := rest } running hand :=
      h.of_same rfl rfl
    dsimp only
    split
    · exact (hnext.run waiter).answer_error _
    · exact hnext

theorem failWaiters (h : Sound p w s running hand) : Sound p w s.failWaiters running hand := by
  unfold Servant.failWaiters
  generalize s.waiting = waiting
  induction waiting generalizing s with
  | nil => exact h
  | cons waiter waiting ih => exact ih h.failWaiter

/-- The pool is closed, and its connections are dropped. -/
theorem close (h : Sound p w s running hand) :
    Sound p w ({ s with pool := s.pool.close.2 }.dropAll s.pool.close.1) running hand := by
  refine Sound.dropAll ?_
  exact h.repool [] (List.append_nil s.pool.idle)

theorem shutdown (h : Sound p w s running hand) : Sound p w s.shutdown running hand := by
  have hinactive : Sound p w { s with active := false } running hand :=
    h.of_same rfl rfl
  exact hinactive.close.failWaiters

/-- Giving a connection back sends nothing and answers nothing. -/
theorem seen_complete (w : Surroundings) (s : Servant) (conn : Conn) :
    w.seen (s.complete conn) = w.seen s := by
  have hdropAll : ∀ (conns : List Conn) (s : Servant), w.seen (s.dropAll conns) = w.seen s := by
    intro conns
    induction conns with
    | nil => exact fun _ => rfl
    | cons conn conns ih =>
        intro s
        show w.seen ((s.dropLink conn.link).dropAll conns) = w.seen s
        rw [ih]
        exact seen_emit w _ _
  unfold Servant.complete
  split
  · dsimp only
    split
    · exact seen_emit w _ _
    · rfl
  · exact hdropAll _ _

/-! ## Dials -/

/-- A task begins to dial; `kept` is what else it holds. -/
theorem dial (kept : List Asset) {task : Connecting → Task}
    (htask : ∀ c, (task c).assets = c.asset :: kept)
    (h : Sound p w s (t :: running) (kept ++ hand)) : Sound p w (s.dial t task) running hand := by
  have hdialed := h.dialed
  refine Sound.setTask (s := { s with nextLink := s.nextLink + 1 }.emit (.dial s.nextLink)) ?_
  rw [htask]
  exact hdialed

theorem begin (h : Sound p w s running hand) (origin : Origin) :
    Sound p w (s.begin origin) running hand := by
  have hopening : Sound p w ({ s with nextLink := s.nextLink + 1 }.emit (.dial s.nextLink)) running
      ((Task.opening origin (.dialing s.nextLink)).assets ++ hand) := h.dialed
  exact hopening.spawn

/-! ## Exchanges -/

theorem exchangeFailed {e : Errand} {conn : Conn}
    (h : Sound p w s (t :: running) (.spent conn.link :: hand)) (why : Failure) :
    Sound p w (s.exchangeFailed t e conn why) running hand := by
  refine Sound.dial [.spent conn.link] (fun _ => rfl) ?_
  exact h

theorem continueExchange {e : Errand} {conn : Conn} {x : Exchange}
    (h : Sound p w s (t :: running) (.awaiting conn.link (some e.id) x :: hand)) :
    Sound p w (s.continueExchange t e conn x) running hand := by
  obtain ⟨_, _, link, hlink, _⟩ := h.holds
  unfold Servant.continueExchange
  rw [hlink]
  dsimp only
  cases hread : link.read x with
  | mk verdict link' =>
      cases verdict with
      | waiting x' =>
          have hmore : Sound p w (s.setLink conn.link link') (t :: running)
              ((Task.exchanging e conn x').assets ++ hand) := h.read_waiting hlink hread
          exact hmore.setTask
      | failed why => exact (h.read_failed link').exchangeFailed why
      | reply frame =>
          obtain ⟨hquiet, k, bytes, hasked, hreplied⟩ := h.read_reply hlink hread
          have hvouched := h.honest.vouch hasked hreplied
          -- the next request may have the connection before this one has its reply
          refine hquiet.complete.answer fun frame' hframe => ?_
          cases hframe
          rw [seen_complete]
          exact hvouched

theorem beginExchange {e : Errand} {conn : Conn}
    (h : Sound p w s (t :: running) (.unsent e :: .quiet conn.link :: hand)) :
    Sound p w (s.beginExchange t e conn) running hand := by
  unfold Servant.beginExchange
  split
  · -- a link that was reset takes no request, so nothing was sent on it
    have hquiet := h.mono (List.sublist_cons_self _ _).subperm
    exact (hquiet.spend rfl hquiet.holds.quiet_spent).exchangeFailed _
  · -- the task is noted as exchanging while it still runs
    have hsent := (h.note List.mem_cons_self (.exchanging e conn .start)).sendRequest
    dsimp only
    split
    · exact (hsent.emit fun _ => rfl).continueExchange
    · exact hsent.continueExchange

/-! ## Starting and reconnecting -/

theorem retryOrEnd (h : Sound p w s (t :: running) hand) (generation : Nat) :
    Sound p w (s.retryOrEnd t generation) running hand := by
  unfold Servant.retryOrEnd
  split
  · have hretrying : Sound p w s (t :: running) ((Task.retrying generation).assets ++ hand) := h
    exact hretrying.setTask.emit fun _ => rfl
  · exact h.endTask

theorem reconnect (h : Sound p w s running hand) (generation : Nat) :
    Sound p w (s.reconnect generation) running hand :=
  (h.spawn_run (.retrying generation)).retryOrEnd generation

theorem startSucceeded (h : Sound p w s (t :: running) hand) (origin : Origin) :
    Sound p w (s.startSucceeded t origin) running hand := by
  cases origin with
  | caller call => exact h.endTask.emit fun _ => rfl
  | loop generation => exact h.endTask

theorem startFailed (h : Sound p w s (t :: running) hand) (why : Failure) (origin : Origin) :
    Sound p w (s.startFailed t why origin) running hand := by
  cases origin with
  | caller call => exact h.endTask.emit fun _ => rfl
  | loop generation => exact h.retryOrEnd generation

/-- The watching task has not been taken: it stays as it is while the link is up. -/
theorem continueWatching {link : LinkId} {generation : Nat} (h : Sound p w s running hand)
    (ht : (t, .watching link generation) ∈ s.tasks) (hrest : t ∉ running) :
    Sound p w (s.continueWatching t link generation) running hand := by
  have htaken : Sound p w s (t :: running) (.spent link :: hand) := h.take ht hrest
  unfold Servant.continueWatching
  split
  · exact (htaken.dropLink rfl).endTask.shutdown.reconnect generation
  · -- what comes in is ignored, and so could not be the answer to anything
    have hread : Sound p w (s.setLink link .quiet) (t :: running)
        ((Task.watching link generation).assets ++ hand) := htaken.setLink rfl rfl htaken.holds
    exact hread.give ht hrest

/-! ## Connections in the making -/

theorem connected {l : LinkId} {task : Task} {c : Connecting} (htask : task.connecting? = some c)
    (h : Sound p w s [t] (.quiet l :: (task.kept ++ hand))) :
    Sound p w (s.connected t l task) [] hand := by
  cases task with
  | connecting e c =>
      have hunsent : Sound p w s [t] (.unsent e :: .quiet l :: hand) :=
        h.mono (List.Perm.swap _ _ _).subperm
      refine Sound.beginExchange ?_
      exact hunsent
  | repairing e conn why c =>
      have hspent : Sound p w s [t] (.spent conn.link :: .quiet l :: hand) :=
        h.mono (List.Perm.swap _ _ _).subperm
      -- the old link goes, with whatever is still outstanding on it
      refine Sound.answer_error (Sound.complete ?_) why
      exact hspent.dropLink rfl
  | refillConnecting c =>
      refine Sound.complete ?_
      exact h.endTask
  | opening origin c =>
      refine Sound.dial [] (fun _ => rfl) (Sound.dropAll ?_)
      exact h.repool [⟨l, l⟩] (Pool.idle_openWith s.pool ⟨l, l⟩)
  | linking origin c =>
      have hactive : Sound p w { s with attempts := 0, active := true } [t] (.spent l :: hand) :=
        (h.spend rfl h.holds.quiet_spent).of_same rfl rfl
      have hstarted := hactive.startSucceeded origin
      -- no request will be sent on the watched link, so all it needs is to be held
      have hwatching : Sound p w _ []
          ((Task.watching l
            ({ s with attempts := 0, active := true }.startSucceeded t origin).generation).assets ++
            hand) := hstarted
      refine hwatching.spawn.continueWatching ?_ List.not_mem_nil
      exact List.mem_append_right _ List.mem_cons_self
  | _ => cases htask

theorem connectFailed {task : Task} {c : Connecting} (htask : task.connecting? = some c)
    (h : Sound p w s [t] (task.kept ++ hand)) (why : Failure) :
    Sound p w (s.connectFailed t why task) [] hand := by
  cases task with
  | connecting e c =>
      have habandoned : Sound p w { s with pool := s.pool.abandon } [t] (.unsent e :: hand) :=
        h.of_same rfl rfl
      exact (habandoned.mono (List.sublist_cons_self _ _).subperm).answer_error why
  | repairing e conn cause c =>
      have hdiscarded :
          Sound p w { s with pool := s.pool.discard } [t] (.spent conn.link :: hand) :=
        h.of_same rfl rfl
      have hdropped := hdiscarded.dropLink rfl
      unfold Servant.connectFailed
      dsimp only
      split
      · exact hdropped.answer_error cause
      · have hrefilling : Sound p w ({ s with pool := s.pool.discard }.dropLink conn.link) [t]
            (Task.refilling.assets ++ hand) := hdropped
        exact (hrefilling.spawn.emit fun _ => rfl).answer_error cause
  | refillConnecting c =>
      have habandoned : Sound p w { s with pool := s.pool.abandon } [t] hand :=
        h.of_same rfl rfl
      exact habandoned.endTask.failWaiter
  | opening origin c => exact h.startFailed why origin
  | linking origin c => exact h.close.startFailed why origin
  | _ => cases htask

theorem continueAuth {l : LinkId} {task : Task} {c : Connecting} {x : Exchange}
    (htask : task.connecting? = some c)
    (h : Sound p w s [t] (.awaiting l none x :: (task.kept ++ hand))) :
    Sound p w (s.continueAuth t task l x) [] hand := by
  obtain ⟨_, _, link, hlink, _⟩ := h.holds
  unfold Servant.continueAuth
  rw [hlink]
  dsimp only
  cases hread : link.read x with
  | mk verdict link' =>
      cases verdict with
      | waiting x' =>
          refine Sound.setTask ?_
          rw [Task.assets_connecting (Task.connecting?_withConnecting htask _),
            Task.kept_withConnecting]
          exact h.read_waiting hlink hread
      | failed why => exact ((h.read_failed link').dropLink rfl).connectFailed htask why
      | reply frame =>
          obtain ⟨hquiet, _⟩ := h.read_reply hlink hread
          -- the answer to the password was read to its end, whatever it says
          dsimp only
          split
          · exact hquiet.connected htask
          · exact (hquiet.dropLink rfl).connectFailed htask _

theorem dialSucceeded {l : LinkId} {task : Task} {c : Connecting}
    (htask : task.connecting? = some c)
    (h : Sound p w s [t] (.dialing l :: (task.kept ++ hand))) (hl : l ∉ (w.seen s).dials) :
    Sound p w (s.dialSucceeded t task l) [] hand := by
  have hquiet := h.connect hl
  unfold Servant.dialSucceeded
  dsimp only
  split
  · exact hquiet.connected htask
  · rename_i password hpassword
    refine (hquiet.sendPassword ?_).continueAuth htask
    rw [← h.profile]
    exact hpassword

/-! ## Tasks that go on -/

theorem wake {task : Task} (h : Sound p w s [] []) (ht : (t, task) ∈ s.tasks) :
    Sound p w (s.wake t task) [] [] := by
  have htaken : Sound p w s [t] (task.assets ++ []) := h.take ht List.not_mem_nil
  cases task with
  | entering e =>
      have hunsent : Sound p w s [t] ((Task.acquiring e).assets ++ []) := htaken
      unfold Servant.wake
      dsimp only
      split
      · exact hunsent.setTask.emit fun _ => rfl
      · exact (htaken.mono List.nil_subperm).answer_error _
  | acquiring e =>
      have hpool := Sound.repool [] htaken (Pool.idle_acquire s.pool).symm
      unfold Servant.wake
      cases hacquire : s.pool.acquire with
      | mk outcome pool =>
          rw [hacquire] at hpool
          cases outcome with
          | closed => exact (hpool.mono List.nil_subperm).answer_error _
          | lent conn => exact (hpool.mono (List.Perm.swap _ _ _).subperm).beginExchange
          | full =>
              have hlining : Sound p w { s with pool } [t] ((Task.lining e).assets ++ []) := hpool
              exact hlining.setTask.emit fun _ => rfl
          | reserved => exact Sound.dial [.unsent e] (fun _ => rfl) hpool
  | lining e =>
      have hpool := Sound.repool [] htaken (Pool.idle_takeIdle s.pool).symm
      unfold Servant.wake
      dsimp only
      split
      · rename_i conn pool hidle
        rw [hidle] at hpool
        exact (hpool.mono (List.Perm.swap _ _ _).subperm).beginExchange
      · split
        · have hentering : Sound p w s [t] ((Task.entering e).assets ++ []) := htaken
          exact hentering.setTask.emit fun _ => rfl
        · split
          · have hqueued : Sound p w { s with waiting := s.waiting ++ [t] } [t]
                ((Task.queued e).assets ++ []) :=
              htaken.of_same rfl rfl
            exact hqueued.setTask
          · exact (htaken.mono List.nil_subperm).answer_error _
  | handed e conn => exact Sound.beginExchange htaken
  | refilling =>
      have hpool := Sound.repool [] htaken (Pool.idle_acquire s.pool).symm
      unfold Servant.wake
      cases hacquire : s.pool.acquire with
      | mk outcome pool =>
          rw [hacquire] at hpool
          cases outcome with
          | closed => exact (hpool.mono List.nil_subperm).endTask.failWaiter
          | lent conn => exact hpool.endTask.complete
          | full => exact (hpool.mono List.nil_subperm).endTask
          | reserved => exact Sound.dial [] (fun _ => rfl) hpool
  | watching link generation =>
      unfold Servant.wake
      dsimp only
      split
      · exact h
      · exact (Sound.dropLink htaken rfl).endTask
  | retrying generation =>
      unfold Servant.wake
      dsimp only
      split
      · exact h
      · exact htaken.endTask
  | queued | connecting | exchanging | repairing | refillConnecting | opening | linking => exact h

theorem linkMoved (h : Sound p w s [] []) (l : LinkId) : Sound p w (s.linkMoved l) [] [] := by
  unfold Servant.linkMoved
  split
  · rename_i t e conn x hreader
    exact (h.take (Servant.mem_of_reader? hreader).1 List.not_mem_nil).continueExchange
  · rename_i t link generation hreader
    exact h.continueWatching (Servant.mem_of_reader? hreader).1 List.not_mem_nil
  · rename_i t task _ _ hreader
    have htaken := h.take (Servant.mem_of_reader? hreader).1 List.not_mem_nil
    split
    · rename_i link x hauth
      rw [Task.assets_connecting hauth] at htaken
      exact htaken.continueAuth hauth
    · exact h
  · exact h

/-- To tell tasks of a stop changes nothing that anybody holds. -/
theorem signal (h : Sound p w s [] []) : Sound p w s.signal [] [] :=
  List.foldlRecOn _ _ (motive := (Sound p w · [] [])) h fun _ hnow _ _ => hnow.emit fun _ => rfl

end Sound

end ShardProxy.Backend
