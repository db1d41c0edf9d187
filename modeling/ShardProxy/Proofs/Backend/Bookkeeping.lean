import ShardProxy.Proofs.Backend.Holdings
import ShardProxy.Proofs.Backend.Ledger

/-!
# Every step keeps the books

One rule for each function of a servant. Whatever event comes, expected or not, the books balance
after it. That those who wait have somebody to look to is kept by all steps but four: a dial or a
refill comes to nothing that was their last hope, in three ways, or a request lines up where nothing
can come free.

* `Servant.Strands` — these four steps;
* `Servant.Making` — what can come of a task that makes a connection;
* `Ledger.react` — what one event does to the books.
-/

namespace ShardProxy.Backend

open scoped List

/-! ## Steps that strand -/

namespace Servant

/-- No task but `t` will look at the queue. -/
def Unhelped (s : Servant) (t : TaskId) : Prop := ∀ q ∈ s.tasks, q.1 ≠ t → q.2.helps = false

theorem Unhelped.of_tasks {s s₁ : Servant} {t : TaskId} (h : s.Unhelped t)
    (htasks : s₁.tasks = s.tasks) : s₁.Unhelped t := fun q hq => h q (htasks ▸ hq)

/-- The steps that leave requests in the queue with nobody to look to. Each is what one task does,
of a servant that was as it is but for its links, timers and effects. -/
inductive Strands (s : Servant) : Servant → Prop where
  /-- The dial of a request fails while others wait. -/
  | dialFailed {s₁ : Servant} {t : TaskId} {e : Errand} {c : Connecting} (why : Failure) :
      s₁.books = s.books → (t, .connecting e c) ∈ s.tasks → s.Unhelped t → s.waiting ≠ [] →
      Strands s (s₁.connectFailed t why (.connecting e c))
  /-- The dial of a refill fails while more than one request waits. -/
  | refillFailed {s₁ : Servant} {t : TaskId} {c : Connecting} (why : Failure) :
      s₁.books = s.books → (t, .refillConnecting c) ∈ s.tasks → s.Unhelped t →
      2 ≤ s.waiting.length → Strands s (s₁.connectFailed t why (.refillConnecting c))
  /-- A refill finds the pool closed while more than one request waits. -/
  | refillRefused {s₁ : Servant} {t : TaskId} :
      s₁.books = s.books → (t, .refilling) ∈ s.tasks → s.Unhelped t → 2 ≤ s.waiting.length →
      s.pool.isOpen = false → Strands s (s₁.wake t .refilling)
  /-- A request joins the queue of a pool that is closed, or that never has room. -/
  | joined {s₁ : Servant} {t : TaskId} {e : Errand} :
      s₁.books = s.books → (t, .lining e) ∈ s.tasks → s.Unhelped t → s.active = true →
      s.pool.isOpen = false ∨ s.pool.capacity = 0 → Strands s (s₁.wake t (.lining e))

theorem books_eq {s s₁ : Servant} (h : s₁.books = s.books) :
    s₁.tasks = s.tasks ∧ s₁.pool = s.pool ∧ s₁.waiting = s.waiting ∧ s₁.active = s.active := by
  simp only [books, Prod.mk.injEq] at h
  exact ⟨h.1, h.2.2.1, h.2.2.2.1, h.2.2.2.2.1⟩

theorem Strands.of_books {s s₁ s' : Servant} (h : s₁.Strands s') (hbooks : s₁.books = s.books) :
    s.Strands s' := by
  obtain ⟨htasks, hpool, hwaiting, hactive⟩ := books_eq hbooks
  have hunhelped : ∀ {t}, s₁.Unhelped t → s.Unhelped t := fun hun => hun.of_tasks htasks.symm
  cases h with
  | dialFailed why hsame ht hun hwait =>
      exact .dialFailed why (hsame.trans hbooks) (htasks ▸ ht) (hunhelped hun) (hwaiting ▸ hwait)
  | refillFailed why hsame ht hun hmore =>
      exact .refillFailed why (hsame.trans hbooks) (htasks ▸ ht) (hunhelped hun) (hwaiting ▸ hmore)
  | refillRefused hsame ht hun hmore hshut =>
      exact .refillRefused (hsame.trans hbooks) (htasks ▸ ht) (hunhelped hun) (hwaiting ▸ hmore)
        (hpool ▸ hshut)
  | joined hsame ht hun hup hroomless =>
      exact .joined (hsame.trans hbooks) (htasks ▸ ht) (hunhelped hun) (hactive ▸ hup)
        (hpool ▸ hroomless)

/-- What can come of a task that makes a connection when its link moves: it waits, it goes on to
present the password, or the connection is made, or it fails. -/
inductive Making (s : Servant) (t : TaskId) (task : Task) (l : LinkId) : Servant → Prop where
  | waiting {s' : Servant} : s'.books = s.books → Making s t task l s'
  | further {s' : Servant} (x : Exchange) : s'.books = s.books →
      Making s t task l (s'.setTask t (withConnecting (.authenticating l x) task))
  | made {s' : Servant} : s'.books = s.books → Making s t task l (s'.connected t l task)
  | failed {s' : Servant} (why : Failure) : s'.books = s.books →
      Making s t task l (s'.connectFailed t why task)

theorem Making.of_books {s s' s'' : Servant} {t : TaskId} {task : Task} {l : LinkId}
    (h : Making s' t task l s'') (hbooks : s'.books = s.books) : Making s t task l s'' := by
  cases h with
  | waiting h => exact .waiting (h.trans hbooks)
  | further x h => exact .further x (h.trans hbooks)
  | made h => exact .made (h.trans hbooks)
  | failed why h => exact .failed why (h.trans hbooks)

variable (s : Servant) (t : TaskId) (task : Task) (l : LinkId)

theorem making_continueAuth (x : Exchange) : Making s t task l (s.continueAuth t task l x) := by
  unfold continueAuth
  split
  · exact .waiting rfl
  · rename_i link _
    dsimp only
    split
    · exact .further _ rfl
    · exact .failed _ rfl
    · split
      · exact .made rfl
      · exact .failed _ rfl

theorem making_dialSucceeded : Making s t task l (s.dialSucceeded t task l) := by
  unfold dialSucceeded
  dsimp only
  split
  · exact .made rfl
  · exact (making_continueAuth _ t task l .start).of_books rfl

end Servant

namespace Ledger

variable {p : Profile} {heedful : Prop} {s s' : Servant} {running : List TaskId}
variable {hand : List Stake} {t : TaskId} {task : Task} {l : LinkId}

/-! ## Exchanges -/

/-- A task begins to dial. -/
theorem dial {task : Connecting → Task}
    (h : Ledger p heedful { s with nextLink := s.nextLink + 1 } (t :: running)
      ((task (.dialing s.nextLink)).stakes ++ hand))
    (hqueued : (task (.dialing s.nextLink)).isQueued = false) :
    Ledger p heedful (s.dial t task) running hand :=
  (h.setTask _ hqueued).of_books rfl

/-- The broken connection stays lent while it is repaired. -/
theorem exchangeFailed {e : Errand} {conn : Conn}
    (h : Ledger p heedful s (t :: running) (.lent conn :: hand)) (why : Failure) :
    Ledger p heedful (s.exchangeFailed t e conn why) running hand := by
  refine Ledger.dial ?_ rfl
  exact h.dialed.forget

theorem continueExchange {e : Errand} {conn : Conn} {x : Exchange} (h : Ledger p heedful s [] [])
    (ht : (t, .exchanging e conn x) ∈ s.tasks) :
    Ledger p heedful (s.continueExchange t e conn x) [] [] := by
  unfold Servant.continueExchange
  split
  · exact h
  · rename_i link _
    have htaken : Ledger p heedful (s.setLink conn.link (link.read x).2) [t] [.lent conn] :=
      (h.take ht List.not_mem_nil rfl).of_books rfl
    dsimp only
    split
    · rename_i x' _
      have hmore := htaken.setTask (.exchanging e conn x') rfl
      exact hmore
    · have hdone := htaken.complete.endTask
      exact hdone.of_books rfl
    · exact htaken.exchangeFailed _

theorem beginExchange {e : Errand} {conn : Conn} (h : Ledger p heedful s [t] [.lent conn]) :
    Ledger p heedful (s.beginExchange t e conn) [] [] := by
  have hset : Ledger p heedful (s.setTask t (.exchanging e conn .start)) [] [] :=
    h.setTask (.exchanging e conn .start) rfl
  have hmem := h.mem_setTask (.exchanging e conn .start)
  unfold Servant.beginExchange
  split
  · exact h.exchangeFailed _
  · dsimp only
    split
    · refine Ledger.continueExchange ?_ hmem
      exact hset.of_books rfl
    · refine Ledger.continueExchange ?_ hmem
      exact hset.of_books rfl

/-! ## Starting and reconnecting -/

theorem retryOrEnd (h : Ledger p heedful s (t :: running) hand) (generation : Nat) :
    Ledger p heedful (s.retryOrEnd t generation) running hand := by
  unfold Servant.retryOrEnd
  split
  · have hretrying := h.setTask (.retrying generation) rfl
    exact hretrying.of_books rfl
  · exact h.endTask

theorem reconnect (h : Ledger p heedful s running hand) (generation : Nat) :
    Ledger p heedful (s.reconnect generation) running hand :=
  (h.spawn_run (.retrying generation)).retryOrEnd generation

theorem begin (h : Ledger p heedful s running hand) (origin : Origin) :
    Ledger p heedful (s.begin origin) running hand := by
  have hopening := h.dialed.spawn (.opening origin (.dialing s.nextLink)) rfl
  exact hopening.of_books rfl

theorem startSucceeded (h : Ledger p heedful s (t :: running) hand) (origin : Origin) :
    Ledger p heedful (s.startSucceeded t origin) running hand := by
  cases origin with
  | caller call => exact h.endTask.of_books rfl
  | loop generation => exact h.endTask

theorem startFailed (h : Ledger p heedful s (t :: running) hand) (why : Failure) (origin : Origin) :
    Ledger p heedful (s.startFailed t why origin) running hand := by
  cases origin with
  | caller call => exact h.endTask.of_books rfl
  | loop generation => exact h.retryOrEnd generation

theorem continueWatching {link : LinkId} {generation : Nat} (h : Ledger p heedful s [] [])
    (ht : (t, .watching link generation) ∈ s.tasks) :
    Ledger p heedful (s.continueWatching t link generation) [] [] := by
  unfold Servant.continueWatching
  split
  · have htaken : Ledger p heedful (s.dropLink link) [t] [] :=
      (h.take ht List.not_mem_nil rfl).of_books rfl
    exact htaken.endTask.shutdown.reconnect generation
  · exact h.of_books rfl

/-! ## Connections in the making -/

theorem connected (h : Ledger p heedful s [] []) (ht : (t, task) ∈ s.tasks)
    (hlink : task.link? = some l) : Ledger p heedful (s.connected t l task) [] [] := by
  cases task with
  | connecting e c =>
      cases hlink
      have htaken := h.take ht List.not_mem_nil rfl
      refine Ledger.beginExchange ?_
      exact htaken.trade [.fresh c.link, .room] [.lent ⟨c.link, c.link⟩] rfl rfl (by simp)
        ⟨_, List.mem_cons_self, rfl⟩
  | repairing e conn why c =>
      have htaken : Ledger p heedful (s.dropLink conn.link) [t] [.lent conn] :=
        (h.take ht List.not_mem_nil rfl).of_books rfl
      -- the connection keeps its number
      have hrepaired := htaken.trade [.lent conn] [.lent { conn with link := l }] rfl rfl
        (by simp) ⟨_, List.mem_cons_self, rfl⟩
      exact (Ledger.complete hrepaired).endTask.of_books rfl
  | refillConnecting c =>
      cases hlink
      have htaken := h.take ht List.not_mem_nil rfl
      have hmade := htaken.trade [.fresh c.link, .room] [.lent ⟨c.link, c.link⟩] rfl rfl
        (by simp) ⟨_, List.mem_cons_self, rfl⟩
      exact Ledger.complete hmade.endTask
  | opening origin c =>
      cases hlink
      have htaken : Ledger p heedful s [t] [.fresh c.link] := h.take ht List.not_mem_nil rfl
      have hopen := (htaken.repool htaken.balanced.openWith).of_books
        (books_dropAll _ (s.pool.openWith ⟨c.link, c.link⟩).1.toList)
      refine Ledger.dial ?_ rfl
      exact hopen.dialed.forget
  | linking origin c =>
      have htaken : Ledger p heedful { s with attempts := 0 } [t] [] :=
        (h.take ht List.not_mem_nil rfl).of_books rfl
      have hstarted := (htaken.setActive true fun _ => rfl).startSucceeded origin
      have hwatching := hstarted.spawn (.watching l
        ({ s with attempts := 0, active := true }.startSucceeded t origin).generation) rfl
      refine hwatching.continueWatching ?_
      exact List.mem_append_right _ List.mem_cons_self
  | entering | acquiring | lining | queued | handed | exchanging | refilling | watching
  | retrying => exact h

/-- Another task that will look at the queue has something at stake. -/
theorem tended_of_helped (h : ¬ s.Unhelped t) : ∃ a ∈ s.stakes [t], a.helps = true := by
  unfold Servant.Unhelped at h
  push Not at h
  obtain ⟨⟨u, task⟩, hmem, hne, hhelps⟩ := h
  obtain ⟨a, ha, hhelp⟩ := Task.exists_helps.mpr (by simpa using hhelps)
  refine ⟨a, List.mem_flatMap.mpr ⟨(u, task), mem_resting.mpr ⟨hmem, ?_⟩, ha⟩, hhelp⟩
  simpa using hne

/-- A dial for which room was reserved is given up. -/
theorem giveUp (h : Ledger p heedful s [] []) (ht : (t, task) ∈ s.tasks)
    (hstakes : task.stakes = [.fresh l, .room]) (hqueued : task.isQueued = false) :
    Ledger p heedful { s with pool := s.pool.abandon } [t] [.refill] := by
  have htaken := h.take ht List.not_mem_nil hqueued
  rw [hstakes] at htaken
  have hroom : Ledger p heedful s [t] [.room] := htaken.forget
  exact hroom.spend rfl

theorem connectFailed (h : Ledger p heedful s [] []) (ht : (t, task) ∈ s.tasks) (why : Failure)
    (hsafe : heedful → ¬ s.Strands (s.connectFailed t why task)) :
    Ledger p heedful (s.connectFailed t why task) [] [] := by
  cases task with
  | connecting e c =>
      -- nobody asks the pool again for those who wait, so they need another to do it
      have habandoned : Ledger p heedful { s with pool := s.pool.abandon } [t] [] :=
        (h.giveUp ht rfl rfl).dismiss rfl fun hheed hwait =>
          tended_of_helped fun hun => hsafe hheed (.dialFailed why rfl ht hun hwait)
      exact habandoned.endTask.of_books rfl
  | repairing e conn cause c =>
      have htaken : Ledger p heedful s [t] [.lent conn] := h.take ht List.not_mem_nil rfl
      have hdiscarded : Ledger p heedful ({ s with pool := s.pool.discard }.dropLink conn.link) [t]
          [.refill] := (htaken.spend rfl).of_books rfl
      unfold Servant.connectFailed
      dsimp only
      split
      · rename_i hempty
        have hnobody := hdiscarded.dismiss rfl fun _ hwait =>
          absurd (List.isEmpty_iff.mp hempty) hwait
        exact hnobody.endTask.of_books rfl
      · have hrefilling := hdiscarded.spawn .refilling rfl
        have hready : Ledger p heedful
            (({ s with pool := s.pool.discard }.dropLink conn.link).spawnReady .refilling) [t] [] :=
          hrefilling.of_books rfl
        exact hready.endTask.of_books rfl
  | refillConnecting c =>
      refine (h.giveUp ht rfl rfl).endTask.failWaiter_refill fun hheed hmore => ?_
      rw [stakes_endTask]
      exact tended_of_helped fun hun => hsafe hheed (.refillFailed why rfl ht hun hmore)
  | opening origin c =>
      have htaken : Ledger p heedful s [t] [.fresh c.link] := h.take ht List.not_mem_nil rfl
      exact htaken.forget.startFailed why origin
  | linking origin c =>
      have htaken : Ledger p heedful s [t] [] := h.take ht List.not_mem_nil rfl
      exact htaken.close.startFailed why origin
  | entering | acquiring | lining | queued | handed | exchanging | refilling | watching
  | retrying => exact h

theorem making (h : Ledger p heedful s [] []) (ht : (t, task) ∈ s.tasks)
    (hlink : task.link? = some l) (hmaking : s.Making t task l s')
    (hsafe : heedful → ¬ s.Strands s') : Ledger p heedful s' [] [] := by
  cases hmaking with
  | waiting hbooks => exact h.of_books hbooks
  | @further s₁ x hbooks =>
      have hqueued : task.isQueued = false := by
        cases task with
        | queued => cases hlink
        | _ => rfl
      have htaken : Ledger p heedful s₁ [t] (task.stakes ++ []) :=
        (h.take ht List.not_mem_nil hqueued).of_books hbooks
      refine Ledger.setTask _ ?_ ?_
      · rw [Task.stakes_withConnecting hlink]
        exact htaken
      · rw [Task.isQueued_withConnecting]
        exact hqueued
  | @made s₁ hbooks =>
      have htasks : s₁.tasks = s.tasks := congrArg (·.1) hbooks
      exact (h.of_books hbooks).connected (htasks ▸ ht) hlink
  | @failed s₁ why hbooks =>
      have htasks : s₁.tasks = s.tasks := congrArg (·.1) hbooks
      refine (h.of_books hbooks).connectFailed (htasks ▸ ht) why fun hheed hstrands => ?_
      exact hsafe hheed (hstrands.of_books hbooks)

/-! ## Tasks that go on -/

theorem wake (h : Ledger p heedful s [] []) (ht : (t, task) ∈ s.tasks)
    (hsafe : heedful → ¬ s.Strands (s.wake t task)) :
    Ledger p heedful (s.wake t task) [] [] := by
  cases task with
  | entering e =>
      have htaken : Ledger p heedful s [t] [] := h.take ht List.not_mem_nil rfl
      unfold Servant.wake
      dsimp only
      split
      · have hacquiring := htaken.setTask (.acquiring e) rfl
        exact hacquiring.of_books rfl
      · exact htaken.endTask.of_books rfl
  | acquiring e =>
      have htaken : Ledger p heedful s [t] [] := h.take ht List.not_mem_nil rfl
      unfold Servant.wake
      rcases s.pool.acquire_cases with ⟨_, hclosed⟩ | ⟨conn, idle, hidle, hlent⟩ |
        ⟨hroom, hreserved⟩ | ⟨_, _, hfull⟩
      · rw [hclosed]
        exact htaken.endTask.of_books rfl
      · rw [hlent]
        exact Ledger.beginExchange (htaken.lend hidle)
      · rw [hreserved]
        have hroomy := htaken.reserve hroom
        exact Ledger.dial hroomy.dialed rfl
      · rw [hfull]
        have hlining := htaken.setTask (.lining e) rfl
        exact hlining.of_books rfl
  | lining e =>
      have htaken : Ledger p heedful s [t] [] := h.take ht List.not_mem_nil rfl
      unfold Servant.wake
      rcases s.pool.takeIdle_cases with ⟨conn, idle, hidle, hlent⟩ | ⟨hidle, hnone⟩
      · rw [hlent]
        exact Ledger.beginExchange (htaken.lend hidle)
      · rw [hnone]
        dsimp only
        split
        · have hentering := htaken.setTask (.entering e) rfl
          exact hentering.of_books rfl
        · rename_i hnoroom
          split
          · rename_i hactive
            refine htaken.join hactive (fun hheed => ?_) e
            by_cases hroomless : s.pool.isOpen = false ∨ s.pool.capacity = 0
            · exact tended_of_helped fun hun => hsafe hheed (.joined rfl ht hun hactive hroomless)
            · -- the pool is open and has nothing to give, so all that it has is in use
              rw [not_or, Bool.not_eq_false] at hroomless
              obtain ⟨hopen, hsize⟩ := hroomless
              refine htaken.balanced.tended_of_full (Nat.pos_of_ne_zero hsize) (hidle hopen) ?_
              unfold Pool.hasCapacity at hnoroom
              rw [hopen] at hnoroom
              simpa using hnoroom
          · exact htaken.endTask.of_books rfl
  | handed e conn => exact Ledger.beginExchange (h.take ht List.not_mem_nil rfl)
  | refilling =>
      have htaken : Ledger p heedful s [t] [.refill] := h.take ht List.not_mem_nil rfl
      unfold Servant.wake
      rcases s.pool.acquire_cases with ⟨hshut, hclosed⟩ | ⟨conn, idle, hidle, hlent⟩ |
        ⟨hroom, hreserved⟩ | ⟨hidle, hfull, hkept⟩
      · rw [hclosed]
        refine htaken.endTask.failWaiter_refill fun hheed hmore => ?_
        rw [stakes_endTask]
        exact tended_of_helped fun hun => hsafe hheed (.refillRefused rfl ht hun hmore hshut)
      · rw [hlent]
        have hlend := htaken.lend hidle
        have hconn := hlend.trade [.lent conn, .refill] [.lent conn] rfl rfl (by simp)
          ⟨_, List.mem_cons_self, rfl⟩
        exact Ledger.complete hconn.endTask
      · rw [hreserved]
        have hreserve := htaken.reserve hroom
        have hroomy := hreserve.trade [.room, .refill] [.room] rfl rfl (by simp)
          ⟨_, List.mem_cons_self, rfl⟩
        exact Ledger.dial hroomy.dialed rfl
      · rw [hkept]
        -- what the pool has is in use, and it would owe no refill if it never had anything
        have hothers : Ledger p heedful s [t] [] := by
          refine htaken.dismiss rfl fun _ _ => ?_
          have hbusy : Balanced p False s (s.stakes [t]) := by
            refine Balanced.dismiss (a := .refill) ?_ rfl fun hfalse => hfalse.elim
            exact htaken.balanced.heedless
          exact hbusy.tended_of_full (htaken.balanced.owed List.mem_cons_self) hidle hfull
        exact hothers.endTask
  | watching link generation =>
      have htaken : Ledger p heedful (s.dropLink link) [t] [] :=
        (h.take ht List.not_mem_nil rfl).of_books rfl
      unfold Servant.wake
      dsimp only
      split
      · exact h
      · exact htaken.endTask
  | retrying generation =>
      have htaken : Ledger p heedful s [t] [] := h.take ht List.not_mem_nil rfl
      unfold Servant.wake
      dsimp only
      split
      · exact h
      · exact htaken.endTask
  | queued | connecting | exchanging | repairing | refillConnecting | opening | linking => exact h

theorem linkMoved (h : Ledger p heedful s [] []) (l : LinkId)
    (hsafe : heedful → ¬ s.Strands (s.linkMoved l)) :
    Ledger p heedful (s.linkMoved l) [] [] := by
  generalize hmoved : s.linkMoved l = s' at hsafe ⊢
  unfold Servant.linkMoved at hmoved
  split at hmoved
  · rename_i t e conn x hreader
    subst hmoved
    exact h.continueExchange (Servant.mem_of_reader? hreader).1
  · rename_i t link generation hreader
    subst hmoved
    exact h.continueWatching (Servant.mem_of_reader? hreader).1
  · rename_i t task _ _ hreader
    split at hmoved
    · rename_i link x hauth
      subst hmoved
      exact h.making (Servant.mem_of_reader? hreader).1 (Task.link?_connecting hauth)
        (s.making_continueAuth t task link x) hsafe
    · subst hmoved
      exact h
  · subst hmoved
    exact h

/-- To tell tasks of a stop is no matter of the books. -/
theorem signal (h : Ledger p heedful s [] []) : Ledger p heedful s.signal [] [] :=
  List.foldlRecOn _ _ (motive := (Ledger p heedful · [] [])) h fun _ hnow _ _ => hnow.of_books rfl

end Ledger

/-- **Whatever event comes, the books balance after it.** -/
theorem Ledger.react {p : Profile} {heedful : Prop} {s : Servant} (h : Ledger p heedful s [] [])
    (ev : Event) (hsafe : heedful → ¬ s.Strands (s.react ev)) :
    Ledger p heedful (s.react ev) [] [] := by
  cases ev with
  | execute e =>
      have hentering := h.spawn (.entering e) rfl
      exact hentering.of_books rfl
  | wake t =>
      generalize hreact : s.react (.wake t) = s' at hsafe ⊢
      unfold Servant.react at hreact
      dsimp only at hreact
      split at hreact
      · rename_i task htask
        subst hreact
        exact h.wake (Servant.mem_of_task? htask) hsafe
      · subst hreact
        exact h
  | dialed l failure =>
      generalize hreact : s.react (.dialed l failure) = s' at hsafe ⊢
      unfold Servant.react at hreact
      dsimp only at hreact
      split at hreact
      · rename_i t task hreader
        obtain ⟨hmem, hlink⟩ := Servant.mem_of_reader? hreader
        -- also where nothing was dialled on the link, and then nothing comes of it
        refine h.making hmem hlink ?_ hsafe
        subst hreact
        split
        · exact s.making_dialSucceeded t task l
        · exact .failed _ rfl
      · subst hreact
        exact h
  | received l bytes =>
      generalize hreact : s.react (.received l bytes) = s' at hsafe ⊢
      unfold Servant.react at hreact
      dsimp only at hreact
      split at hreact
      · subst hreact
        refine Ledger.linkMoved ?_ l fun hheed hstrands => hsafe hheed (hstrands.of_books rfl)
        exact h.of_books rfl
      · subst hreact
        exact h
  | ended l ending =>
      generalize hreact : s.react (.ended l ending) = s' at hsafe ⊢
      unfold Servant.react at hreact
      dsimp only at hreact
      split at hreact
      · subst hreact
        refine Ledger.linkMoved ?_ l fun hheed hstrands => hsafe hheed (hstrands.of_books rfl)
        exact h.of_books rfl
      · subst hreact
        exact h
  | alarm t =>
      unfold Servant.react
      dsimp only
      split
      · rename_i e conn x htask
        have htaken := h.take (Servant.mem_of_task? htask) List.not_mem_nil rfl
        exact Ledger.exchangeFailed htaken _
      · rename_i generation htask
        have htaken : Ledger p heedful { s with attempts := s.attempts + 1 } [t] [] :=
          (h.take (Servant.mem_of_task? htask) List.not_mem_nil rfl).of_books rfl
        exact Ledger.dial htaken.dialed rfl
      · exact h
  | start call => exact h.begin (.caller call)
  | reconnect => exact h.reconnect s.generation
  | stop =>
      have hstopped : Ledger p heedful { s.shutdown with generation := s.generation + 1 } [] [] :=
        h.shutdown.of_books rfl
      exact hstopped.signal

theorem Ledger.initial (p : Profile) (heedful : Prop) : Ledger p heedful (.ofProfile p) [] [] := by
  refine ⟨⟨List.nodup_nil, fun t ht => absurd ht List.not_mem_nil, List.nodup_nil,
    fun t ht => absurd ht List.not_mem_nil, List.Perm.refl _, fun hne => absurd rfl hne⟩,
    ⟨rfl, rfl, Nat.zero_le _, List.nodup_nil, fun i hi => absurd hi List.not_mem_nil,
      fun howed => absurd howed List.not_mem_nil, fun _ hne => absurd rfl hne⟩⟩

end ShardProxy.Backend
