import Mathlib.Data.List.Perm.Subperm
import ShardProxy.Proofs.Backend.History
import ShardProxy.Proofs.Backend.Pool
import ShardProxy.Proofs.Backend.Tasks

/-!
# Who holds what

A link, and the right to send a request, have one holder at a time: the pool, a task, or the code
that is running. What a link is like depends on its holder alone, so nothing that happens on one
link is felt on another.

* `Asset` — what can be held, and what its holder may rely on;
* `Accounted` — each asset has one holder, and is as the holder expects;
* `Servant.assets` — what the pool and the tasks hold, apart from the tasks that are running.
-/

namespace ShardProxy.Backend

open scoped List

/-! ## Assets -/

inductive Asset where
  /-- A link that is being dialled. -/
  | dialing (l : LinkId)
  /-- A link on which nothing is outstanding. -/
  | quiet (l : LinkId)
  /-- A link on which an answer is awaited, by a request or to the password. -/
  | awaiting (l : LinkId) (sender : Option RequestId) (x : Exchange)
  /-- A link on which nothing will be sent again. -/
  | spent (l : LinkId)
  /-- The right to send a request. -/
  | unsent (e : Errand)
  deriving DecidableEq, Repr

/-- What an asset is about. -/
inductive Asset.Key where
  | link (l : LinkId)
  | request (id : RequestId)
  deriving DecidableEq, Repr

/-- Nothing is outstanding on a link, and nothing came in on it that was not read. -/
def QuietOn (w : Surroundings) (s : Servant) (l : LinkId) : Prop :=
  (∃ link, s.link? l = some link ∧ link.unread = []) ∧ (w.peer l).Settled

/-- Nothing has happened on a link. -/
def Unused (w : Surroundings) (s : Servant) (l : LinkId) : Prop :=
  s.link? l = none ∧ w.peer l = {} ∧ l ∉ w.dials

namespace Asset

def key : Asset → Key
  | dialing l | quiet l | awaiting l _ _ | spent l => .link l
  | unsent e => .request e.id

/-- What the holder of an asset may rely on. -/
def Holds (w : Surroundings) (s : Servant) : Asset → Prop
  | dialing l => l < s.nextLink ∧ s.link? l = none ∧ w.peer l = {}
  | quiet l => l < s.nextLink ∧ l ∉ w.dials ∧ QuietOn w s l
  | awaiting l sender x =>
    l < s.nextLink ∧ l ∉ w.dials ∧
      ∃ link, s.link? l = some link ∧ (w.peer l).Answering sender (x.received ++ link.unread)
  | spent l => l < s.nextLink ∧ l ∉ w.dials
  | unsent e => w.calls[e.id]? = some e.request ∧ ∀ l k, ¬ w.Sent e.id l k

theorem Holds.quiet_spent {w : Surroundings} {s : Servant} {l : LinkId}
    (h : (quiet l).Holds w s) : (spent l).Holds w s := ⟨h.1, h.2.1⟩

theorem Holds.awaiting_spent {w : Surroundings} {s : Servant} {l : LinkId}
    {sender : Option RequestId} {x : Exchange} (h : (awaiting l sender x).Holds w s) :
    (spent l).Holds w s := ⟨h.1, h.2.1⟩

/-- Links in use are no new links. -/
theorem Holds.link_lt {w : Surroundings} {s : Servant} {a : Asset} {l : LinkId}
    (h : a.Holds w s) (hkey : a.key = .link l) : l < s.nextLink := by
  cases a with
  | unsent => cases hkey
  | dialing | quiet | awaiting | spent =>
      cases hkey
      exact h.1

/-- While a link is being dialled, its holder knows so. -/
theorem Holds.dialing_of_mem {w : Surroundings} {s : Servant} {a : Asset} {l : LinkId}
    (h : a.Holds w s) (hkey : a.key = .link l) (hdial : l ∈ w.dials) : a = .dialing l := by
  cases a with
  | dialing m =>
      cases hkey
      rfl
  | quiet m | awaiting m sender x =>
      cases hkey
      exact absurd hdial h.2.1
  | spent m =>
      cases hkey
      exact absurd hdial h.2
  | unsent e => cases hkey

end Asset

open Asset (Key)

/-- A step that changes nothing but what is about some keys. -/
structure Frame (touched : List Key) (w w' : Surroundings) (s s' : Servant) : Prop where
  recent : s.nextLink ≤ s'.nextLink
  link : ∀ l, .link l ∉ touched → s'.link? l = s.link? l
  peer : ∀ l, .link l ∉ touched → w'.peer l = w.peer l
  dials : ∀ l, .link l ∉ touched → l ∈ w'.dials → l ∈ w.dials
  calls : ∀ (id : RequestId) (request : Bytes),
    w.calls[id]? = some request → w'.calls[id]? = some request
  sent : ∀ id l k, .request id ∉ touched → w'.Sent id l k → w.Sent id l k

/-- A step that changes nothing that assets are about. -/
theorem Frame.same {touched : List Key} {w w' : Surroundings} {s s' : Servant}
    (hlinks : s'.links = s.links) (hnext : s'.nextLink = s.nextLink) (hpeer : w'.peer = w.peer)
    (hdials : w'.dials = w.dials) (hcalls : w'.calls = w.calls) : Frame touched w w' s s' where
  recent := hnext.ge
  link := by
    intro l _
    unfold Servant.link?
    rw [hlinks]
  peer := by
    intro l _
    rw [hpeer]
  dials := by
    intro l _ hd
    rw [hdials] at hd
    exact hd
  calls := by
    intro id request hid
    rw [hcalls]
    exact hid
  sent := by
    rintro id l k _ ⟨bytes, hsent⟩
    rw [hpeer] at hsent
    exact ⟨bytes, hsent⟩

theorem Asset.Holds.frame {touched : List Key} {w w' : Surroundings} {s s' : Servant} {a : Asset}
    (h : a.Holds w s) (hframe : Frame touched w w' s s') (ha : a.key ∉ touched) :
    a.Holds w' s' := by
  have hrecent := hframe.recent
  cases a with
  | dialing l =>
      obtain ⟨hl, hlink, hpeer⟩ := h
      refine ⟨Nat.lt_of_lt_of_le hl hrecent, ?_, ?_⟩
      · rw [hframe.link l ha]
        exact hlink
      · rw [hframe.peer l ha]
        exact hpeer
  | quiet l =>
      obtain ⟨hl, hdials, hlink, hpeer⟩ := h
      refine ⟨Nat.lt_of_lt_of_le hl hrecent, fun hd => hdials (hframe.dials l ha hd), ?_, ?_⟩
      · rw [hframe.link l ha]
        exact hlink
      · rw [hframe.peer l ha]
        exact hpeer
  | awaiting l sender x =>
      obtain ⟨hl, hdials, hlink⟩ := h
      refine ⟨Nat.lt_of_lt_of_le hl hrecent, fun hd => hdials (hframe.dials l ha hd), ?_⟩
      rw [hframe.link l ha, hframe.peer l ha]
      exact hlink
  | spent l => exact ⟨Nat.lt_of_lt_of_le h.1 hrecent, fun hd => h.2 (hframe.dials l ha hd)⟩
  | unsent e =>
      exact ⟨hframe.calls e.id e.request h.1, fun l k hk => h.2 l k (hframe.sent e.id l k ha hk)⟩

/-! ## Accounts -/

/-- Everything that is held is as its holder expects, and has one holder. -/
structure Accounted (w : Surroundings) (s : Servant) (assets : List Asset) : Prop where
  apart : (assets.map Asset.key).Nodup
  holds : ∀ a ∈ assets, a.Holds w s

namespace Accounted

variable {w w' : Surroundings} {s s' : Servant} {assets : List Asset}

theorem mono {fewer : List Asset} (h : Accounted w s assets) (hfewer : fewer <+~ assets) :
    Accounted w s fewer := by
  refine ⟨?_, fun a ha => h.holds a (hfewer.subset ha)⟩
  obtain ⟨same, hperm, hsub⟩ := hfewer
  have hnodup := h.apart.sublist (hsub.map Asset.key)
  exact (hperm.map Asset.key).nodup_iff.mp hnodup

/-- Changes at some keys, of which the holders are the running code. -/
theorem frame {olds news : List Asset} (h : Accounted w s (olds ++ assets))
    (hframe : Frame (olds.map Asset.key) w w' s s')
    (hkeys : news.map Asset.key <+~ olds.map Asset.key) (hnews : ∀ a ∈ news, a.Holds w' s') :
    Accounted w' s' (news ++ assets) := by
  have happart := h.apart
  rw [List.map_append, List.nodup_append] at happart
  obtain ⟨holds, hassets, hdisjoint⟩ := happart
  refine ⟨?_, fun a ha => ?_⟩
  · rw [List.map_append, List.nodup_append]
    refine ⟨?_, hassets, fun k hk => hdisjoint k (hkeys.subset hk)⟩
    obtain ⟨same, hperm, hsub⟩ := hkeys
    exact hperm.nodup_iff.mp (holds.sublist hsub)
  · rcases List.mem_append.mp ha with hnew | hold
    · exact hnews a hnew
    · refine (h.holds a (List.mem_append_right olds hold)).frame hframe fun hk => ?_
      exact hdisjoint a.key hk a.key (List.mem_map_of_mem hold) rfl

/-- A change at a key that nobody held, and the asset that comes of it. -/
theorem add {a : Asset} (h : Accounted w s assets) (hframe : Frame [a.key] w w' s s')
    (hfree : ∀ b ∈ assets, b.key ≠ a.key) (ha : a.Holds w' s') : Accounted w' s' (a :: assets) := by
  refine ⟨?_, fun b hb => ?_⟩
  · rw [List.map_cons, List.nodup_cons]
    refine ⟨fun hmem => ?_, h.apart⟩
    obtain ⟨b, hb, hkey⟩ := List.mem_map.mp hmem
    exact hfree b hb hkey
  · rcases List.mem_cons.mp hb with rfl | hold
    · exact ha
    · exact (h.holds b hold).frame hframe fun hk => hfree b hold (List.mem_singleton.mp hk)

end Accounted

/-! ## What a servant holds -/

def Connecting.asset : Connecting → Asset
  | dialing l => .dialing l
  | authenticating l x => .awaiting l none x

namespace Task

/-- What a task holds besides a connection in the making. -/
def kept : Task → List Asset
  | entering e | acquiring e | lining e | queued e | connecting e _ => [.unsent e]
  | handed e conn => [.unsent e, .quiet conn.link]
  | exchanging e conn x => [.awaiting conn.link (some e.id) x]
  | repairing _ conn _ _ => [.spent conn.link]
  | watching l _ => [.spent l]
  | refilling | refillConnecting _ | opening .. | linking .. | retrying _ => []

def assets (task : Task) : List Asset :=
  (task.connecting?.map Connecting.asset).toList ++ task.kept

theorem assets_connecting {task : Task} {c : Connecting} (h : task.connecting? = some c) :
    task.assets = c.asset :: task.kept := by
  unfold Task.assets
  rw [h]
  rfl

theorem link?_connecting {task : Task} {c : Connecting} (h : task.connecting? = some c) :
    task.link? = some c.link := by
  cases task with
  | connecting | repairing | refillConnecting | opening | linking =>
      cases h
      rfl
  | _ => cases h

theorem connecting?_withConnecting {task : Task} {c : Connecting} (h : task.connecting? = some c)
    (c' : Connecting) : (Servant.withConnecting c' task).connecting? = some c' := by
  cases task with
  | connecting | repairing | refillConnecting | opening | linking => rfl
  | _ => cases h

theorem kept_withConnecting (c : Connecting) (task : Task) :
    (Servant.withConnecting c task).kept = task.kept := by
  cases task <;> rfl

end Task

/-- What those tasks hold that are not running. -/
def atRest (tasks : List (TaskId × Task)) (running : List TaskId) : List Asset :=
  (tasks.filter (·.1 ∉ running)).flatMap (·.2.assets)

namespace Servant

def assets (s : Servant) (running : List TaskId) : List Asset :=
  s.pool.idle.map (fun conn => .quiet conn.link) ++ atRest s.tasks running

/-- The part of a servant that says who holds what. -/
def holders (s : Servant) : List (TaskId × Task) × TaskId × List Conn :=
  (s.tasks, s.nextTask, s.pool.idle)

/-- The part of a servant that says how its links are, and what it asked for. -/
def traffic (s : Servant) : Profile × List (LinkId × Link) × LinkId × List Effect :=
  (s.profile, s.links, s.nextLink, s.effects)

variable {s s' : Servant} {t : TaskId} {task : Task}

theorem mem_of_task? (h : s.task? t = some task) : (t, task) ∈ s.tasks := by
  obtain ⟨before, after, htasks, _⟩ := List.lookup_eq_some_iff.mp h
  rw [htasks]
  exact List.mem_append_right _ List.mem_cons_self

theorem mem_of_reader? {l : LinkId} (h : s.reader? l = some (t, task)) :
    (t, task) ∈ s.tasks ∧ task.link? = some l := by
  have hfound := List.find?_some h
  exact ⟨List.mem_of_find?_eq_some h, by simpa using hfound⟩

theorem holders_eq (h : s'.holders = s.holders) :
    s'.tasks = s.tasks ∧ s'.nextTask = s.nextTask ∧ s'.pool.idle = s.pool.idle := by
  simpa [holders] using h

theorem traffic_eq (h : s'.traffic = s.traffic) :
    s'.profile = s.profile ∧ s'.links = s.links ∧ s'.nextLink = s.nextLink ∧
      s'.effects = s.effects := by
  simpa [traffic] using h

theorem assets_eq (h : s'.holders = s.holders) (running : List TaskId) :
    s'.assets running = s.assets running := by
  obtain ⟨htasks, _, hidle⟩ := holders_eq h
  unfold assets
  rw [htasks, hidle]

end Servant

section Tasks

variable {tasks : List (TaskId × Task)} {running : List TaskId} {t : TaskId} {task : Task}

theorem atRest_cons (q : TaskId × Task) (tasks : List (TaskId × Task)) (running : List TaskId) :
    atRest (q :: tasks) running =
      (if q.1 ∈ running then [] else q.2.assets) ++ atRest tasks running := by
  unfold atRest
  by_cases hq : q.1 ∈ running
  · rw [List.filter_cons_of_neg (by simpa using hq), if_pos hq]
    rfl
  · rw [List.filter_cons_of_pos (by simpa using hq), if_neg hq]
    rfl

theorem atRest_append (as bs : List (TaskId × Task)) (running : List TaskId) :
    atRest (as ++ bs) running = atRest as running ++ atRest bs running := by
  unfold atRest
  rw [List.filter_append, List.flatMap_append]

/-- Running tasks hold nothing of their own. -/
theorem atRest_run (tasks : List (TaskId × Task)) (t : TaskId) (running : List TaskId) :
    atRest (tasks.filter (·.1 != t)) running = atRest tasks (t :: running) :=
  congrArg (List.flatMap _) (resting_filter tasks t running)

theorem atRest_run_of_absent (ht : t ∉ tasks.map (·.1)) (running : List TaskId) :
    atRest tasks (t :: running) = atRest tasks running :=
  congrArg (List.flatMap _) (resting_of_absent ht running)

theorem atRest_run_of_running (ht : t ∈ running) :
    atRest tasks (t :: running) = atRest tasks running :=
  congrArg (List.flatMap _) (resting_of_running ht)

theorem atRest_run_subperm (tasks : List (TaskId × Task)) (t : TaskId) (running : List TaskId) :
    atRest tasks (t :: running) <+~ atRest tasks running :=
  ((resting_sublist tasks t running).flatMap _).subperm

/-- A task that begins to run takes with it what it holds. -/
theorem atRest_take (hnumbered : (tasks.map (·.1)).Nodup) (ht : (t, task) ∈ tasks)
    (hrest : t ∉ running) : atRest tasks running ~ task.assets ++ atRest tasks (t :: running) :=
  (resting_take hnumbered ht hrest).flatMap_right _

theorem atRest_set_of_running (ht : t ∈ running) (task : Task) :
    atRest (tasks.map fun q => if q.1 = t then (t, task) else q) running =
      atRest tasks running :=
  congrArg (List.flatMap _) (resting_set_of_running ht task)

/-- A task that comes to rest holds what it was given. -/
theorem atRest_put (hnumbered : (tasks.map (·.1)).Nodup) (task : Task) :
    atRest (tasks.map fun q => if q.1 = t then (t, task) else q) running <+~
      task.assets ++ atRest tasks (t :: running) := by
  by_cases hrest : t ∈ running
  · rw [atRest_set_of_running hrest, atRest_run_of_running hrest]
    exact (List.sublist_append_right _ _).subperm
  · -- a task that is not there is put nowhere, and what it was given is let go
    by_cases ht : t ∈ tasks.map (·.1)
    · exact ((resting_put hnumbered ht hrest task).flatMap_right _).subperm
    · rw [← map_fst_set tasks t task] at ht
      rw [← atRest_set_of_running List.mem_cons_self task, atRest_run_of_absent ht]
      exact (List.sublist_append_right _ _).subperm

end Tasks

end ShardProxy.Backend
