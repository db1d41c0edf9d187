import ShardProxy.Backend.Servant

/-!
# What a servant knows of its host

How a host is served is said when its servant is made, and stays so: `Servant.profile_step`, with a
lemma for each function that a step is made of.
-/

namespace ShardProxy.Backend.Servant

variable (s : Servant) (t : TaskId)

theorem profile_dropAll (conns : List Conn) : (s.dropAll conns).profile = s.profile :=
  List.foldlRecOn conns _ (motive := (profile · = s.profile)) rfl fun _ hsame _ _ => hsame

theorem profile_complete (conn : Conn) : (s.complete conn).profile = s.profile := by
  unfold complete
  split
  · dsimp only
    split
    · rfl
    · rfl
  · exact profile_dropAll _ _

theorem profile_failWaiter : s.failWaiter.profile = s.profile := by
  unfold failWaiter
  split
  · rfl
  · dsimp only
    split
    · rfl
    · rfl

theorem profile_failWaiters : s.failWaiters.profile = s.profile :=
  List.foldlRecOn s.waiting _ (motive := (profile · = s.profile)) rfl
    fun r hsame _ _ => (profile_failWaiter r).trans hsame

theorem profile_shutdown : s.shutdown.profile = s.profile :=
  (profile_failWaiters _).trans (profile_dropAll _ _)

theorem profile_continueExchange (e : Errand) (conn : Conn) (x : Exchange) :
    (s.continueExchange t e conn x).profile = s.profile := by
  unfold continueExchange
  split
  · rfl
  · dsimp only
    split
    · rfl
    · exact profile_complete _ _
    · rfl

theorem profile_beginExchange (e : Errand) (conn : Conn) :
    (s.beginExchange t e conn).profile = s.profile := by
  unfold beginExchange
  split
  · rfl
  · rw [profile_continueExchange]
    split
    · rfl
    · rfl

theorem profile_retryOrEnd (generation : Nat) :
    (s.retryOrEnd t generation).profile = s.profile := by
  unfold retryOrEnd
  split
  · rfl
  · rfl

theorem profile_startSucceeded (origin : Origin) :
    (s.startSucceeded t origin).profile = s.profile := by
  cases origin with
  | caller call => rfl
  | loop generation => rfl

theorem profile_startFailed (why : Failure) (origin : Origin) :
    (s.startFailed t why origin).profile = s.profile := by
  cases origin with
  | caller call => rfl
  | loop generation => exact profile_retryOrEnd s t generation

theorem profile_continueWatching (link : LinkId) (generation : Nat) :
    (s.continueWatching t link generation).profile = s.profile := by
  unfold continueWatching
  split
  · exact (profile_retryOrEnd _ _ _).trans (profile_shutdown _)
  · rfl

theorem profile_connected (link : LinkId) (task : Task) :
    (s.connected t link task).profile = s.profile := by
  cases task with
  | connecting e c => exact profile_beginExchange s t e ⟨link, link⟩
  | repairing e conn why c => exact profile_complete _ _
  | refillConnecting c => exact profile_complete _ _
  | opening origin c => exact profile_dropAll _ _
  | linking origin c =>
      exact (profile_continueWatching _ _ _ _).trans (profile_startSucceeded _ t origin)
  | entering | acquiring | lining | queued | handed | exchanging | refilling | watching
  | retrying => rfl

theorem profile_connectFailed (why : Failure) (task : Task) :
    (s.connectFailed t why task).profile = s.profile := by
  cases task with
  | connecting e c => rfl
  | repairing e conn cause c =>
      show (if s.waiting.isEmpty = true then _ else _ : Servant).profile = s.profile
      split
      · rfl
      · rfl
  | refillConnecting c => exact profile_failWaiter _
  | opening origin c => exact profile_startFailed s t why origin
  | linking origin c => exact (profile_startFailed _ t why origin).trans (profile_dropAll _ _)
  | entering | acquiring | lining | queued | handed | exchanging | refilling | watching
  | retrying => rfl

theorem profile_continueAuth (task : Task) (l : LinkId) (x : Exchange) :
    (s.continueAuth t task l x).profile = s.profile := by
  unfold continueAuth
  split
  · rfl
  · dsimp only
    split
    · rfl
    · exact profile_connectFailed _ _ _ _
    · split
      · exact profile_connected _ _ _ _
      · exact profile_connectFailed _ _ _ _

theorem profile_dialSucceeded (task : Task) (l : LinkId) :
    (s.dialSucceeded t task l).profile = s.profile := by
  unfold dialSucceeded
  dsimp only
  split
  · exact profile_connected _ _ _ _
  · exact profile_continueAuth _ _ _ _ _

theorem profile_wake (task : Task) : (s.wake t task).profile = s.profile := by
  unfold wake
  split
  · split
    · rfl
    · rfl
  · dsimp only
    split
    · rfl
    · exact profile_beginExchange _ _ _ _
    · rfl
    · rfl
  · split
    · exact profile_beginExchange _ _ _ _
    split
    · rfl
    split
    · rfl
    · rfl
  · exact profile_beginExchange _ _ _ _
  · dsimp only
    split
    · exact profile_failWaiter _
    · exact profile_complete _ _
    · rfl
    · rfl
  · split
    · rfl
    · rfl
  · split
    · rfl
    · rfl
  · rfl

theorem profile_linkMoved (l : LinkId) : (s.linkMoved l).profile = s.profile := by
  unfold linkMoved
  split
  · exact profile_continueExchange _ _ _ _ _
  · exact profile_continueWatching _ _ _ _
  · split
    · exact profile_continueAuth _ _ _ _ _
    · rfl
  · rfl

theorem profile_signal : s.signal.profile = s.profile :=
  List.foldlRecOn _ _ (motive := (profile · = s.profile)) rfl fun _ hsame _ _ => hsame

theorem profile_react (e : Event) : (s.react e).profile = s.profile := by
  cases e with
  | execute errand => rfl
  | wake t =>
      unfold react
      dsimp only
      split
      · exact profile_wake _ _ _
      · rfl
  | dialed l failure =>
      unfold react
      dsimp only
      split
      · split
        · exact profile_dialSucceeded _ _ _ _
        · exact profile_connectFailed _ _ _ _
      · rfl
  | received l bytes =>
      unfold react
      dsimp only
      split
      · exact profile_linkMoved _ _
      · rfl
  | ended l ending =>
      unfold react
      dsimp only
      split
      · exact profile_linkMoved _ _
      · rfl
  | alarm t =>
      unfold react
      dsimp only
      split
      · rfl
      · rfl
      · rfl
  | start call => rfl
  | reconnect => exact profile_retryOrEnd _ _ _
  | stop => exact (profile_signal _).trans (profile_shutdown s)

/-- No event changes what is known of the host. -/
theorem profile_step (e : Event) : (s.step e).1.profile = s.profile := profile_react s e

end ShardProxy.Backend.Servant
