import ShardProxy.Proofs.Backend.Holdings

/-!
# Sound servants

The invariant of a servant in its surroundings, also in the midst of a step: some tasks run, and
what they held is in the hand of the running code. Every change that a servant makes to itself is
one of a few, and for each there is a rule:

* `Sound.rearrange` — assets change hands, but nothing happens to them;
* `Sound.act` — something happens to assets in hand;
* `Sound.dialed` — there is a new link.
-/

namespace ShardProxy.Backend

open scoped List
open Asset (Key)

/-- The surroundings once everything has been done that a servant asked for in the step so far. -/
def Surroundings.seen (w : Surroundings) (s : Servant) : Surroundings :=
  s.effects.foldl Surroundings.perform w

/-! ## The links of a servant -/

namespace Servant

variable {s : Servant} {l m : LinkId} {link : Link}

theorem link?_setLink_self {old : Link} (h : s.link? l = some old) :
    (s.setLink l link).link? l = some link := by
  show (s.links.map fun q => if q.1 = l then (l, link) else q).lookup l = some link
  have hold : s.links.lookup l = some old := h
  generalize s.links = links at hold
  induction links with
  | nil => cases hold
  | cons q links ih =>
      rw [List.map_cons, List.lookup_cons]
      by_cases hq : q.1 = l
      · rw [if_pos hq]
        simp
      · have hne : (l == q.1) = false := beq_false_of_ne fun heq => hq heq.symm
        rw [if_neg hq, hne]
        rw [List.lookup_cons, hne] at hold
        exact ih hold

theorem link?_setLink_ne (hm : m ≠ l) (link : Link) :
    (s.setLink l link).link? m = s.link? m := by
  show (s.links.map fun q => if q.1 = l then (l, link) else q).lookup m = s.links.lookup m
  have hne : (m == l) = false := beq_false_of_ne hm
  induction s.links with
  | nil => rfl
  | cons q links ih =>
      rw [List.map_cons, List.lookup_cons, List.lookup_cons, ih]
      by_cases hq : q.1 = l
      · rw [if_pos hq, hq, hne]
      · rw [if_neg hq]

theorem link?_dropLink_ne (hm : m ≠ l) : (s.dropLink l).link? m = s.link? m :=
  lookup_filter_ne s.links hm

/-- The dial of a link succeeded. -/
def connect (s : Servant) (l : LinkId) : Servant := { s with links := s.links ++ [(l, .quiet)] }

theorem link?_connect_self (h : s.link? l = none) : (s.connect l).link? l = some .quiet := by
  have hnone : s.links.lookup l = none := h
  show (s.links ++ [(l, Link.quiet)]).lookup l = some .quiet
  rw [List.lookup_append, hnone]
  simp

theorem link?_connect_ne (hm : m ≠ l) : (s.connect l).link? m = s.link? m := by
  show (s.links ++ [(l, Link.quiet)]).lookup m = s.links.lookup m
  have hne : (m == l) = false := beq_false_of_ne hm
  rw [List.lookup_append, List.lookup_cons, hne]
  exact Option.or_none

end Servant

/-- A servant in the midst of a step. The tasks in `running` have let go of what they held, and the
running code holds `hand`. -/
structure Sound (p : Profile) (w : Surroundings) (s : Servant) (running : List TaskId)
    (hand : List Asset) : Prop where
  profile : s.profile = p
  numbered : (s.tasks.map (·.1)).Nodup
  recent : ∀ q ∈ s.tasks, q.1 < s.nextTask
  unused : ∀ l, s.nextLink ≤ l → Unused (w.seen s) s l
  accounted : Accounted (w.seen s) s (hand ++ s.assets running)
  honest : (w.seen s).Honest p

namespace Sound

variable {p : Profile} {w : Surroundings} {s s' : Servant} {running : List TaskId}
variable {hand : List Asset}

theorem seen_emit (w : Surroundings) (s : Servant) (e : Effect) :
    w.seen (s.emit e) = (w.seen s).perform e := List.foldl_concat ..

/-- What an asset in hand is like. -/
theorem holds {a : Asset} (h : Sound p w s running (a :: hand)) : a.Holds (w.seen s) s :=
  h.accounted.holds a List.mem_cons_self

/-! ## Changing hands -/

/-- Assets change hands. -/
theorem rearrange {running' : List TaskId} {hand' : List Asset} (h : Sound p w s running hand)
    (htraffic : s'.traffic = s.traffic) (hnumbered : (s'.tasks.map (·.1)).Nodup)
    (hrecent : ∀ q ∈ s'.tasks, q.1 < s'.nextTask)
    (hassets : hand' ++ s'.assets running' <+~ hand ++ s.assets running) :
    Sound p w s' running' hand' := by
  obtain ⟨hprofile, hlinks, hnext, heffects⟩ := Servant.traffic_eq htraffic
  have hseen : w.seen s' = w.seen s := by
    unfold Surroundings.seen
    rw [heffects]
  have hframe : Frame [] (w.seen s) (w.seen s) s s' := Frame.same hlinks hnext rfl rfl rfl
  have hkept := h.accounted.mono hassets
  refine ⟨hprofile.trans h.profile, hnumbered, hrecent, ?_, ?_, hseen ▸ h.honest⟩
  · intro l hl
    rw [hnext] at hl
    rw [hseen]
    obtain ⟨hlink, hunused⟩ := h.unused l hl
    exact ⟨(hframe.link l List.not_mem_nil).trans hlink, hunused⟩
  · rw [hseen]
    exact ⟨hkept.apart, fun a ha => (hkept.holds a ha).frame hframe List.not_mem_nil⟩

/-- Other fields, and a pool with the same connections. -/
theorem of_same (h : Sound p w s running hand) (htraffic : s'.traffic = s.traffic)
    (hholders : s'.holders = s.holders) : Sound p w s' running hand := by
  obtain ⟨htasks, hnextTask, _⟩ := Servant.holders_eq hholders
  refine h.rearrange htraffic ?_ ?_ ?_
  · rw [htasks]
    exact h.numbered
  · rw [htasks, hnextTask]
    exact h.recent
  · rw [Servant.assets_eq hholders]

/-- Assets can be let go, and are in hand in no order. -/
theorem mono {hand' : List Asset} (h : Sound p w s running hand) (hhand : hand' <+~ hand) :
    Sound p w s running hand' :=
  h.rearrange rfl h.numbered h.recent ((List.subperm_append_right _).mpr hhand)

/-- Connections move between the pool and the hand. -/
theorem repool (given : List Conn) {pool : Pool} {taken : List Conn}
    (h : Sound p w s running (given.map (fun conn => .quiet conn.link) ++ hand))
    (hidle : taken ++ pool.idle = given ++ s.pool.idle) :
    Sound p w { s with pool } running (taken.map (fun conn => .quiet conn.link) ++ hand) := by
  refine h.rearrange rfl h.numbered h.recent (List.Perm.subperm ?_)
  -- the same quiet links on both sides, before the assets of the tasks
  have hquiet := congrArg (List.map fun conn => Asset.quiet conn.link) hidle
  rw [List.map_append, List.map_append] at hquiet
  unfold Servant.assets
  rw [List.append_assoc, List.append_assoc]
  refine (List.perm_append_comm_assoc _ _ _).trans ?_
  refine List.Perm.trans ?_ (List.perm_append_comm_assoc _ _ _)
  refine List.Perm.append_left _ ?_
  rw [← List.append_assoc, hquiet, List.append_assoc]

/-- Assets can be counted with the tasks or with the hand. -/
theorem hand_over (as hand idle rest : List Asset) :
    as ++ hand ++ (idle ++ rest) ~ hand ++ (idle ++ (as ++ rest)) := by
  rw [List.append_assoc]
  refine (List.perm_append_comm_assoc _ _ _).trans (List.Perm.append_left _ ?_)
  exact List.perm_append_comm_assoc _ _ _

/-- A task begins to run. -/
theorem take {t : TaskId} {task : Task} (h : Sound p w s running hand) (ht : (t, task) ∈ s.tasks)
    (hrest : t ∉ running) : Sound p w s (t :: running) (task.assets ++ hand) := by
  refine h.rearrange rfl h.numbered h.recent (List.Perm.subperm ?_)
  refine (hand_over _ _ _ _).trans (List.Perm.append_left _ (List.Perm.append_left _ ?_))
  exact (atRest_take h.numbered ht hrest).symm

/-- A task comes to rest as it was. -/
theorem give {t : TaskId} {task : Task} (h : Sound p w s (t :: running) (task.assets ++ hand))
    (ht : (t, task) ∈ s.tasks) (hrest : t ∉ running) : Sound p w s running hand := by
  refine h.rearrange rfl h.numbered h.recent (List.Perm.subperm ?_)
  refine List.Perm.trans ?_ (hand_over _ _ _ _).symm
  refine List.Perm.append_left _ (List.Perm.append_left _ ?_)
  exact atRest_take h.numbered ht hrest

theorem numbered_set (h : Sound p w s running hand) (t : TaskId) (task : Task) :
    ((s.setTask t task).tasks.map (·.1)).Nodup ∧
      ∀ q ∈ (s.setTask t task).tasks, q.1 < (s.setTask t task).nextTask := by
  refine ⟨?_, fun q hq => ?_⟩
  · show ((s.tasks.map fun q => if q.1 = t then (t, task) else q).map (·.1)).Nodup
    rw [map_fst_set]
    exact h.numbered
  · obtain ⟨q', hq', rfl⟩ := List.mem_map.mp hq
    have hrecent := h.recent q' hq'
    split
    · rename_i hqt
      exact hqt ▸ hrecent
    · exact hrecent

/-- A task comes to rest further on. -/
theorem setTask {t : TaskId} {task : Task} (h : Sound p w s (t :: running) (task.assets ++ hand)) :
    Sound p w (s.setTask t task) running hand := by
  obtain ⟨hnumbered, hrecent⟩ := h.numbered_set t task
  refine h.rearrange rfl hnumbered hrecent ?_
  refine List.Subperm.trans ?_ (hand_over _ _ _ _).symm.subperm
  refine (List.subperm_append_left _).mpr ((List.subperm_append_left _).mpr ?_)
  exact atRest_put h.numbered task

/-- What is noted of a task that runs does not count. -/
theorem note {t : TaskId} (h : Sound p w s running hand) (ht : t ∈ running) (task : Task) :
    Sound p w (s.setTask t task) running hand := by
  obtain ⟨hnumbered, hrecent⟩ := h.numbered_set t task
  refine h.rearrange rfl hnumbered hrecent ?_
  refine List.Perm.subperm (List.Perm.append_left _ (List.Perm.append_left _ ?_))
  rw [show (s.setTask t task).tasks = s.tasks.map fun q => if q.1 = t then (t, task) else q
    from rfl, atRest_set_of_running ht]

/-- What a task held is let go. -/
theorem run (h : Sound p w s running hand) (t : TaskId) : Sound p w s (t :: running) hand := by
  refine h.rearrange rfl h.numbered h.recent ?_
  refine (List.subperm_append_left _).mpr ((List.subperm_append_left _).mpr ?_)
  exact atRest_run_subperm s.tasks t running

theorem endTask {t : TaskId} (h : Sound p w s (t :: running) hand) :
    Sound p w (s.endTask t) running hand := by
  refine h.rearrange rfl ?_ ?_ (List.Perm.subperm ?_)
  · exact h.numbered.sublist (List.filter_sublist.map _)
  · exact fun q hq => h.recent q (List.mem_of_mem_filter hq)
  · refine List.Perm.append_left _ (List.Perm.append_left _ ?_)
    rw [← atRest_run]
    rfl

theorem numbered_spawn (h : Sound p w s running hand) (task : Task) :
    ((s.spawn task).tasks.map (·.1)).Nodup ∧
      ∀ q ∈ (s.spawn task).tasks, q.1 < (s.spawn task).nextTask := by
  have hfresh : s.nextTask ∉ s.tasks.map (·.1) := by
    intro hmem
    obtain ⟨q, hq, hnext⟩ := List.mem_map.mp hmem
    exact absurd hnext (Nat.ne_of_lt (h.recent q hq))
  refine ⟨?_, fun q hq => ?_⟩
  · show ((s.tasks ++ [(s.nextTask, task)]).map (·.1)).Nodup
    rw [List.map_append, List.map_singleton, ← List.concat_eq_append]
    exact h.numbered.concat hfresh
  · rcases List.mem_append.mp hq with hold | hnew
    · exact Nat.lt_succ_of_lt (h.recent q hold)
    · rw [List.mem_singleton.mp hnew]
      exact Nat.lt_succ_self s.nextTask

theorem spawn {task : Task} (h : Sound p w s running (task.assets ++ hand)) :
    Sound p w (s.spawn task) running hand := by
  obtain ⟨hnumbered, hrecent⟩ := h.numbered_spawn task
  refine h.rearrange rfl hnumbered hrecent ?_
  refine List.Subperm.trans ?_ (hand_over _ _ _ _).symm.subperm
  refine (List.subperm_append_left _).mpr ((List.subperm_append_left _).mpr ?_)
  show atRest (s.tasks ++ [(s.nextTask, task)]) running <+~ _
  rw [atRest_append, atRest_cons]
  refine List.Subperm.trans ?_ List.perm_append_comm.subperm
  refine (List.subperm_append_left _).mpr ?_
  rw [show atRest [] running = [] from rfl, List.append_nil]
  -- a task with the new number may be running already, and then it holds nothing
  split
  · exact List.nil_subperm
  · exact List.Subperm.refl _

/-- A task that runs at once holds nothing yet. -/
theorem spawn_run (h : Sound p w s running hand) (task : Task) :
    Sound p w (s.spawn task) (s.nextTask :: running) hand := by
  obtain ⟨hnumbered, hrecent⟩ := h.numbered_spawn task
  refine h.rearrange rfl hnumbered hrecent ?_
  refine (List.subperm_append_left _).mpr ((List.subperm_append_left _).mpr ?_)
  show atRest (s.tasks ++ [(s.nextTask, task)]) (s.nextTask :: running) <+~ _
  rw [atRest_append, atRest_cons, if_pos List.mem_cons_self]
  refine List.Subperm.trans (List.Perm.subperm ?_) (atRest_run_subperm s.tasks s.nextTask running)
  rw [show atRest [] (s.nextTask :: running) = [] from rfl, List.append_nil, List.append_nil]

/-! ## Acts -/

/-- Something happens to assets in hand, and others come of them. -/
theorem act (olds news : List Asset) (h : Sound p w s running (olds ++ hand))
    (hprofile : s'.profile = s.profile) (hholders : s'.holders = s.holders)
    (hframe : Frame (olds.map Asset.key) (w.seen s) (w.seen s') s s')
    (hkeys : news.map Asset.key <+~ olds.map Asset.key)
    (hnews : ∀ a ∈ news, a.Holds (w.seen s') s') (hhonest : (w.seen s').Honest p) :
    Sound p w s' running (news ++ hand) := by
  obtain ⟨htasks, hnextTask, _⟩ := Servant.holders_eq hholders
  refine ⟨hprofile.trans h.profile, htasks ▸ h.numbered, ?_, ?_, ?_, hhonest⟩
  · rw [htasks, hnextTask]
    exact h.recent
  · intro l hl
    have hold := Nat.le_trans hframe.recent hl
    -- a link that is held is not new
    have hfree : Key.link l ∉ olds.map Asset.key := by
      intro hmem
      obtain ⟨a, ha, hkey⟩ := List.mem_map.mp hmem
      have hholds := h.accounted.holds a (List.mem_append_left _ (List.mem_append_left _ ha))
      exact absurd (hholds.link_lt hkey) (Nat.not_lt.mpr hold)
    obtain ⟨hlink, hpeer, hdials⟩ := h.unused l hold
    refine ⟨?_, ?_, fun hd => hdials (hframe.dials l hfree hd)⟩
    · rw [hframe.link l hfree]
      exact hlink
    · rw [hframe.peer l hfree]
      exact hpeer
  · have haccounted := h.accounted
    rw [List.append_assoc] at haccounted ⊢
    rw [Servant.assets_eq hholders]
    exact haccounted.frame hframe hkeys hnews

/-- Something happens that no asset is about. -/
theorem pass (h : Sound p w s running hand) (hprofile : s'.profile = s.profile)
    (hholders : s'.holders = s.holders) (hframe : Frame [] (w.seen s) (w.seen s') s s')
    (hhonest : (w.seen s').Honest p) : Sound p w s' running hand :=
  h.act [] [] hprofile hholders hframe (List.Subperm.refl _)
    (fun _ ha => absurd ha List.not_mem_nil) hhonest

/-- Something happens to one asset. -/
theorem become {a b : Asset} (h : Sound p w s running (a :: hand)) (hkey : b.key = a.key)
    (hprofile : s'.profile = s.profile) (hholders : s'.holders = s.holders)
    (hframe : Frame [a.key] (w.seen s) (w.seen s') s s') (hb : b.Holds (w.seen s') s')
    (hhonest : (w.seen s').Honest p) : Sound p w s' running (b :: hand) := by
  refine h.act [a] [b] hprofile hholders hframe ?_ ?_ hhonest
  · rw [List.map_singleton, List.map_singleton, hkey]
  · intro c hc
    rw [List.mem_singleton.mp hc]
    exact hb

/-- What a servant asks for without any effect on links and requests. -/
theorem emit {e : Effect} (h : Sound p w s running hand)
    (he : ∀ w : Surroundings, w.perform e = w) : Sound p w (s.emit e) running hand := by
  have hseen : w.seen (s.emit e) = w.seen s := by rw [seen_emit, he]
  refine h.pass rfl rfl ?_ ?_
  · rw [hseen]
    exact Frame.same rfl rfl rfl rfl rfl
  · rw [hseen]
    exact h.honest

/-- A link is given up. -/
theorem spend {a : Asset} {l : LinkId} (h : Sound p w s running (a :: hand)) (ha : a.key = .link l)
    (hspent : (Asset.spent l).Holds (w.seen s) s) : Sound p w s running (.spent l :: hand) :=
  h.become ha.symm rfl rfl (Frame.same rfl rfl rfl rfl rfl) hspent h.honest

/-- A servant does something to one link, and says so at most. -/
theorem frame_link {l : LinkId} {touched : List Key} (hl : Key.link l ∈ touched)
    (hseen : w.seen s' = w.seen s) (hnext : s.nextLink ≤ s'.nextLink)
    (hlink : ∀ m, m ≠ l → s'.link? m = s.link? m) : Frame touched (w.seen s) (w.seen s') s s' := by
  rw [hseen]
  refine ⟨hnext, fun m hm => hlink m ?_, fun _ _ => rfl, fun _ _ hd => hd, fun _ _ hid => hid,
    fun _ _ _ _ hk => hk⟩
  rintro rfl
  exact hm hl

theorem setLink {a b : Asset} {l : LinkId} {link : Link} (h : Sound p w s running (a :: hand))
    (ha : a.key = .link l) (hb : b.key = .link l)
    (hholds : b.Holds (w.seen s) (s.setLink l link)) :
    Sound p w (s.setLink l link) running (b :: hand) := by
  refine h.become (hb.trans ha.symm) rfl rfl ?_ hholds h.honest
  refine frame_link ?_ rfl (Nat.le_refl _) fun m (hm : m ≠ l) => Servant.link?_setLink_ne hm link
  rw [ha]
  exact List.mem_singleton_self _

theorem dropLink {a : Asset} {l : LinkId} (h : Sound p w s running (a :: hand))
    (ha : a.key = .link l) : Sound p w (s.dropLink l) running hand := by
  have hseen : w.seen (s.dropLink l) = w.seen s := seen_emit w _ _
  refine h.act [a] [] rfl rfl ?_ ?_ ?_ ?_
  · refine frame_link ?_ hseen (Nat.le_refl _) fun m (hm : m ≠ l) => Servant.link?_dropLink_ne hm
    rw [List.map_singleton, ha]
    exact List.mem_singleton_self _
  · exact List.nil_subperm
  · exact fun c hc => absurd hc List.not_mem_nil
  · rw [hseen]
    exact h.honest

theorem connect {l : LinkId} (h : Sound p w s running (.dialing l :: hand))
    (hl : l ∉ (w.seen s).dials) : Sound p w (s.connect l) running (.quiet l :: hand) := by
  obtain ⟨hrecent, hlink, hpeer⟩ := h.holds
  refine h.become rfl rfl rfl ?_ ?_ h.honest
  · exact frame_link List.mem_cons_self rfl (Nat.le_refl _) fun m hm => Servant.link?_connect_ne hm
  · refine ⟨hrecent, hl, ⟨.quiet, Servant.link?_connect_self hlink, rfl⟩, ?_⟩
    show ((w.seen s).peer l).Settled
    rw [hpeer]
    exact ⟨rfl, rfl⟩

/-- A link is dialled. -/
theorem dialed (h : Sound p w s running hand) :
    Sound p w ({ s with nextLink := s.nextLink + 1 }.emit (.dial s.nextLink)) running
      (.dialing s.nextLink :: hand) := by
  have hseen : w.seen ({ s with nextLink := s.nextLink + 1 }.emit (.dial s.nextLink)) =
      (w.seen s).perform (.dial s.nextLink) := seen_emit w _ _
  obtain ⟨hlink, hpeer, _⟩ := h.unused s.nextLink (Nat.le_refl _)
  refine ⟨h.profile, h.numbered, h.recent, ?_, ?_, ?_⟩
  · intro l hl
    have hnew : s.nextLink < l := hl
    obtain ⟨hlink, hpeer, hdials⟩ := h.unused l (Nat.le_of_lt hnew)
    rw [hseen]
    refine ⟨hlink, hpeer, fun hd => ?_⟩
    rcases List.mem_append.mp hd with hold | hsame
    · exact hdials hold
    · exact absurd (List.mem_singleton.mp hsame) (Nat.ne_of_gt hnew)
  · -- nobody can hold the new link, for it is no link in use
    rw [hseen]
    refine h.accounted.add ?_ ?_ ⟨Nat.lt_succ_self _, hlink, hpeer⟩
    · refine ⟨Nat.le_succ _, fun _ _ => rfl, fun _ _ => rfl, fun l hl hd => ?_, fun _ _ hid => hid,
        fun _ _ _ _ hk => hk⟩
      rcases List.mem_append.mp hd with hold | hsame
      · exact hold
      · refine absurd ?_ hl
        rw [List.mem_singleton.mp hsame]
        exact List.mem_cons_self
    · intro b hb hkey
      exact absurd ((h.accounted.holds b hb).link_lt hkey) (Nat.lt_irrefl _)
  · rw [hseen]
    exact ⟨h.honest.counted, h.honest.framed, h.honest.ordered, h.honest.once, h.honest.vouched⟩

theorem frame_write {l : LinkId} {q : Write} {touched : List Key} (hl : Key.link l ∈ touched)
    (hq : ∀ id, q.sender = some id → Key.request id ∈ touched) (e : Effect) :
    Frame touched w (w.write l q) s (s.emit e) := by
  refine ⟨Nat.le_refl _, fun _ _ => rfl, fun m hm => ?_, fun _ _ hd => hd, fun _ _ hid => hid, ?_⟩
  · refine Surroundings.peer_setPeer_ne ?_ _
    rintro rfl
    exact hm hl
  · intro id m k hid hk
    rcases hk.of_write with hold | ⟨_, _, hnew⟩
    · exact hold
    · exact absurd (hq id hnew) hid

/-- After a write on a quiet link its answer is awaited, and nothing else. -/
theorem awaiting_write {l : LinkId} (h : (Asset.quiet l).Holds w s) (q : Write) :
    (Asset.awaiting l q.sender .start).Holds (w.write l q) s := by
  obtain ⟨hrecent, hdials, ⟨link, hlink, hunread⟩, hsettled⟩ := h
  refine ⟨hrecent, hdials, link, hlink, ?_⟩
  unfold Surroundings.write
  rw [Surroundings.peer_setPeer_self, hunread]
  exact hsettled.answering q

theorem sendRequest {e : Errand} {l : LinkId}
    (h : Sound p w s running (.unsent e :: .quiet l :: hand)) :
    Sound p w (s.emit (.send l (some e.id) e.request)) running
      (.awaiting l (some e.id) .start :: hand) := by
  have hseen : w.seen (s.emit (.send l (some e.id) e.request)) =
      (w.seen s).write l ⟨some e.id, e.request⟩ := seen_emit w s _
  obtain ⟨hcall, hunsent⟩ := h.holds
  have hquiet : (Asset.quiet l).Holds (w.seen s) s :=
    h.accounted.holds _ (List.mem_cons_of_mem _ List.mem_cons_self)
  -- the right to send goes with the write, so the request is never sent again
  refine h.act [.unsent e, .quiet l] [.awaiting l (some e.id) .start] rfl rfl ?_ ?_ ?_ ?_
  · rw [hseen]
    refine frame_write (List.mem_cons_of_mem _ List.mem_cons_self) (fun id hid => ?_) _
    cases hid
    exact List.mem_cons_self
  · exact List.Subperm.cons_self
  · intro c hc
    rw [hseen, List.mem_singleton.mp hc]
    exact awaiting_write hquiet ⟨some e.id, e.request⟩
  · rw [hseen]
    refine h.honest.write hcall fun id hid => ?_
    cases hid
    exact hunsent

theorem sendPassword {l : LinkId} {password : Bytes} (h : Sound p w s running (.quiet l :: hand))
    (hpassword : p.password = some password) :
    Sound p w (s.emit (.send l none (Profile.authRequest password))) running
      (.awaiting l none .start :: hand) := by
  have hseen : w.seen (s.emit (.send l none (Profile.authRequest password))) =
      (w.seen s).write l ⟨none, Profile.authRequest password⟩ := seen_emit w s _
  refine h.become rfl rfl rfl ?_ ?_ ?_
  · rw [hseen]
    exact frame_write List.mem_cons_self (fun id hid => by cases hid) _
  · rw [hseen]
    exact awaiting_write h.holds ⟨none, Profile.authRequest password⟩
  · rw [hseen]
    exact h.honest.write ⟨password, hpassword, rfl⟩ fun id hid => by cases hid

/-- A request is over. -/
theorem answer {t : TaskId} {e : Errand} {result : Except Failure Bytes}
    (h : Sound p w s (t :: running) hand)
    (hresult : ∀ frame, result = .ok frame → (w.seen s).Vouched e.id frame) :
    Sound p w (s.answer t e result) running hand := by
  have hseen : w.seen (s.answer t e result) = (w.seen s).perform (.answer e.id result) :=
    seen_emit w (s.endTask t) _
  refine h.endTask.pass rfl rfl ?_ ?_
  · rw [hseen]
    exact Frame.same rfl rfl rfl rfl rfl
  · rw [hseen]
    exact h.honest.answer hresult

theorem answer_error {t : TaskId} {e : Errand} (h : Sound p w s (t :: running) hand)
    (why : Failure) : Sound p w (s.answer t e (.error why)) running hand :=
  h.answer fun _ hok => by cases hok

/-! ## Reading -/

variable {l : LinkId} {sender : Option RequestId} {x : Exchange} {link link' : Link}

theorem read_waiting {x' : Exchange} (h : Sound p w s running (.awaiting l sender x :: hand))
    (hlink : s.link? l = some link) (hread : link.read x = (.waiting x', link')) :
    Sound p w (s.setLink l link') running (.awaiting l sender x' :: hand) := by
  obtain ⟨hrecent, hdials, link₀, hlink₀, hanswering⟩ := h.holds
  cases hlink.symm.trans hlink₀
  refine h.setLink rfl rfl ⟨hrecent, hdials, link', Servant.link?_setLink_self hlink, ?_⟩
  rw [Link.read_waiting hread]
  exact hanswering

/-- Once a reply was read, the link is quiet, and the reply is that to the last write. -/
theorem read_reply {frame : Bytes} (h : Sound p w s running (.awaiting l sender x :: hand))
    (hlink : s.link? l = some link) (hread : link.read x = (.reply frame, link')) :
    Sound p w (s.setLink l link') running (.quiet l :: hand) ∧
      ∃ (k : Nat) (bytes : Bytes), ((w.seen s).peer l).asked[k]? = some ⟨sender, bytes⟩ ∧
        ((w.seen s).peer l).replied[k]? = some frame := by
  obtain ⟨hrecent, hdials, link₀, hlink₀, hanswering⟩ := h.holds
  cases hlink.symm.trans hlink₀
  obtain ⟨hunread, hsettled, hanswer⟩ :=
    hanswering.settled (h.honest.counted l) (h.honest.framed l) hread
  refine ⟨h.setLink rfl rfl ⟨hrecent, hdials, ⟨link', ?_, hunread⟩, hsettled⟩, hanswer⟩
  exact Servant.link?_setLink_self hlink

theorem read_failed (h : Sound p w s running (.awaiting l sender x :: hand)) (link' : Link) :
    Sound p w (s.setLink l link') running (.spent l :: hand) :=
  h.setLink rfl rfl ⟨h.holds.1, h.holds.2.1⟩

end Sound

end ShardProxy.Backend
