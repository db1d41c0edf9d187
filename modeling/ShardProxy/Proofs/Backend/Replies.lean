import ShardProxy.Proofs.Backend.Steps

/-!
# No reply crosses over

A servant is sound in every state that it can come to, whatever callers, hosts, dials and timers
do. So a connection is given to a request only when nothing is outstanding on it, and the reply to
a request is the frame with which a host answered that request.

* `System.sound` — every reachable state is sound;
* `System.no_reply_crosses` — what that says about connections, writes and answers.
-/

namespace ShardProxy.Backend

variable {p : Profile} {w w' : Surroundings} {s s' : Servant} {l : LinkId}

namespace Surroundings

theorem seen_of_rest (w : Surroundings) (h : s.effects = []) : w.seen s = w := by
  unfold seen
  rw [h]
  rfl

end Surroundings

/-! ## What happens on one link -/

/-- Nothing is called for, dialled or sent, and one link alone may change. -/
theorem frame_at (hnext : s.nextLink ≤ s'.nextLink) (hlink : ∀ m, m ≠ l → s'.link? m = s.link? m)
    (hpeer : ∀ m, m ≠ l → w'.peer m = w.peer m) (hdials : w'.dials = w.dials)
    (hcalls : w'.calls = w.calls) (hasked : ∀ m, (w'.peer m).asked = (w.peer m).asked) :
    Frame [.link l] w w' s s' := by
  have hother : ∀ {m}, Asset.Key.link m ∉ [Asset.Key.link l] → m ≠ l := by
    rintro m hm rfl
    exact hm List.mem_cons_self
  refine ⟨hnext, fun m hm => hlink m (hother hm), fun m hm => hpeer m (hother hm), ?_, ?_, ?_⟩
  · intro m _ hd
    rw [hdials] at hd
    exact hd
  · intro id request hid
    rw [hcalls]
    exact hid
  · rintro id m k _ ⟨bytes, hsent⟩
    rw [hasked] at hsent
    exact ⟨bytes, hsent⟩

namespace Asset

variable {a : Asset} {link link' : Link}

/-- A link that is up stays as its holder knows it. -/
theorem Holds.update (h : a.Holds w s) (hframe : Frame [.link l] w w' s s')
    (hdials : w'.dials = w.dials) (hlink : s.link? l = some link) (hlink' : s'.link? l = some link')
    (hquiet : link.unread = [] → (w.peer l).Settled → link'.unread = [] ∧ (w'.peer l).Settled)
    (hawaiting : ∀ sender got, (w.peer l).Answering sender (got ++ link.unread) →
      (w'.peer l).Answering sender (got ++ link'.unread)) : a.Holds w' s' := by
  have hrecent := hframe.recent
  by_cases hkey : a.key = .link l
  · cases a with
    | dialing m =>
        -- a link that is still being dialled is not up
        cases hkey
        rw [h.2.1] at hlink
        cases hlink
    | quiet m =>
        cases hkey
        obtain ⟨hm, hd, ⟨old, hold, hunread⟩, hsettled⟩ := h
        cases hlink.symm.trans hold
        obtain ⟨hunread', hsettled'⟩ := hquiet hunread hsettled
        rw [← hdials] at hd
        exact ⟨Nat.lt_of_lt_of_le hm hrecent, hd, ⟨link', hlink', hunread'⟩, hsettled'⟩
    | awaiting m sender x =>
        cases hkey
        obtain ⟨hm, hd, old, hold, hanswering⟩ := h
        cases hlink.symm.trans hold
        rw [← hdials] at hd
        exact ⟨Nat.lt_of_lt_of_le hm hrecent, hd, link', hlink', hawaiting sender _ hanswering⟩
    | spent m =>
        cases hkey
        obtain ⟨hm, hd⟩ := h
        rw [← hdials] at hd
        exact ⟨Nat.lt_of_lt_of_le hm hrecent, hd⟩
    | unsent e => cases hkey
  · exact h.frame hframe fun hmem => hkey (List.mem_singleton.mp hmem)

/-- On a link that is not up, or not yet, nothing is expected. -/
theorem Holds.absent (h : a.Holds w s) (hframe : Frame [.link l] w w' s s)
    (hdials : w'.dials = w.dials) (hlink : s.link? l = none)
    (hpeer : w.peer l = {} → w'.peer l = {}) : a.Holds w' s := by
  by_cases hkey : a.key = .link l
  · cases a with
    | dialing m =>
        cases hkey
        exact ⟨h.1, h.2.1, hpeer h.2.2⟩
    | quiet m =>
        cases hkey
        obtain ⟨_, _, ⟨old, hold, _⟩, _⟩ := h
        rw [hlink] at hold
        cases hold
    | awaiting m sender x =>
        cases hkey
        obtain ⟨_, _, old, hold, _⟩ := h
        rw [hlink] at hold
        cases hold
    | spent m =>
        cases hkey
        obtain ⟨hm, hd⟩ := h
        rw [← hdials] at hd
        exact ⟨hm, hd⟩
    | unsent e => cases hkey
  · exact h.frame hframe fun hmem => hkey (List.mem_singleton.mp hmem)

end Asset

/-! ## What happens between steps -/

namespace Sound

/-- The surroundings change, or a link, but every holder can rely on what it could. -/
theorem change (h : Sound p w s [] []) (hrest : s.effects = []) (hrest' : s'.effects = [])
    (hprofile : s'.profile = s.profile) (hholders : s'.holders = s.holders)
    (hnext : s'.nextLink = s.nextLink) (hunused : ∀ m, Unused w s m → Unused w' s' m)
    (hholds : ∀ a : Asset, a.Holds w s → a.Holds w' s') (hhonest : w'.Honest p) :
    Sound p w' s' [] [] := by
  have hseen := Surroundings.seen_of_rest w hrest
  have hseen' := Surroundings.seen_of_rest w' hrest'
  obtain ⟨htasks, hnextTask, _⟩ := Servant.holders_eq hholders
  refine ⟨hprofile.trans h.profile, htasks ▸ h.numbered, ?_, ?_, ?_, hseen'.symm ▸ hhonest⟩
  · rw [htasks, hnextTask]
    exact h.recent
  · intro m hm
    rw [hnext] at hm
    rw [hseen']
    exact hunused m (hseen ▸ h.unused m hm)
  · rw [hseen', Servant.assets_eq hholders]
    refine ⟨h.accounted.apart, fun a ha => hholds a ?_⟩
    have hold := h.accounted.holds a ha
    rw [hseen] at hold
    exact hold

theorem receive {bytes : Bytes} {link : Link} (h : Sound p w s [] []) (hrest : s.effects = [])
    (hlink : s.link? l = some link) (hbytes : bytes <+: (w.peer l).inFlight) :
    Sound p (w.deliver (.received l bytes))
      (s.setLink l { link with unread := link.unread ++ bytes }) [] [] := by
  have hhonest : w.Honest p := Surroundings.seen_of_rest w hrest ▸ h.honest
  have hself : (w.deliver (.received l bytes)).peer l =
      { w.peer l with inFlight := (w.peer l).inFlight.drop bytes.length } :=
    Surroundings.peer_setPeer_self w l _
  have hframe : Frame [.link l] w (w.deliver (.received l bytes)) s
      (s.setLink l { link with unread := link.unread ++ bytes }) :=
    frame_at (Nat.le_refl _) (fun m hm => Servant.link?_setLink_ne hm _)
      (fun m hm => Surroundings.peer_setPeer_ne hm _) rfl rfl (Surroundings.asked_deliver _)
  refine h.change hrest hrest rfl rfl rfl (fun m hm => ?_) (fun a ha => ?_)
    (hhonest.deliver _)
  · obtain ⟨hnone, hpeer, hdials⟩ := hm
    have hne : m ≠ l := by
      rintro rfl
      rw [hnone] at hlink
      cases hlink
    refine ⟨?_, ?_, hdials⟩
    · rw [Servant.link?_setLink_ne hne]
      exact hnone
    · exact (Surroundings.peer_setPeer_ne hne _).trans hpeer
  · refine ha.update hframe rfl hlink (Servant.link?_setLink_self hlink) ?_ ?_
    · -- nothing is in flight on a quiet link, so nothing comes in
      rintro hunread ⟨hflight, hcount⟩
      rw [hflight, List.prefix_nil] at hbytes
      subst hbytes
      refine ⟨by rw [hunread]; rfl, ?_⟩
      rw [hself]
      exact ⟨by rw [hflight]; rfl, hcount⟩
    · intro sender got hanswering
      rw [hself, ← List.append_assoc]
      exact hanswering.receive hbytes

/-- Bytes that come in on a link that was dropped are lost. -/
theorem lose (h : Sound p w s [] []) (hrest : s.effects = []) (hlink : s.link? l = none)
    (bytes : Bytes) : Sound p (w.deliver (.received l bytes)) s [] [] := by
  have hhonest : w.Honest p := Surroundings.seen_of_rest w hrest ▸ h.honest
  have hframe : Frame [.link l] w (w.deliver (.received l bytes)) s s :=
    frame_at (Nat.le_refl _) (fun _ _ => rfl) (fun m hm => Surroundings.peer_setPeer_ne hm _)
      rfl rfl (Surroundings.asked_deliver _)
  have hpeer : ∀ m, w.peer m = {} → (w.deliver (.received l bytes)).peer m = {} := by
    intro m hm
    by_cases heq : m = l
    · subst heq
      refine (Surroundings.peer_setPeer_self w m _).trans ?_
      rw [hm, List.drop_nil]
    · exact (Surroundings.peer_setPeer_ne heq _).trans hm
  refine h.change hrest hrest rfl rfl rfl ?_ ?_ (hhonest.deliver _)
  · exact fun m hm => ⟨hm.1, hpeer m hm.2.1, hm.2.2⟩
  · exact fun a ha => ha.absent hframe rfl hlink (hpeer l)

/-- The other side ends a link. -/
theorem finish {link : Link} (h : Sound p w s [] []) (hrest : s.effects = [])
    (hlink : s.link? l = some link) (ending : Option Ending) :
    Sound p w (s.setLink l { link with ending }) [] [] := by
  have hhonest : w.Honest p := Surroundings.seen_of_rest w hrest ▸ h.honest
  have hframe : Frame [.link l] w w s (s.setLink l { link with ending }) :=
    frame_at (Nat.le_refl _) (fun m hm => Servant.link?_setLink_ne hm _) (fun _ _ => rfl) rfl rfl
      fun _ => rfl
  refine h.change hrest hrest rfl rfl rfl (fun m hm => ?_) (fun a ha => ?_) hhonest
  · obtain ⟨hnone, hpeer, hdials⟩ := hm
    have hne : m ≠ l := by
      rintro rfl
      rw [hnone] at hlink
      cases hlink
    refine ⟨?_, hpeer, hdials⟩
    rw [Servant.link?_setLink_ne hne]
    exact hnone
  · exact ha.update hframe rfl hlink (Servant.link?_setLink_self hlink)
      (fun hunread hsettled => ⟨hunread, hsettled⟩) fun _ _ hanswering => hanswering

/-- A host answers what it was asked. -/
theorem reply {frame : Bytes} (h : Sound p w s [] []) (hrest : s.effects = [])
    (howed : (w.peer l).replied.length < (w.peer l).asked.length)
    (hframe : ∃ v, Wire.Derives frame v) : Sound p (w.reply l frame) s [] [] := by
  have hhonest : w.Honest p := Surroundings.seen_of_rest w hrest ▸ h.honest
  have hself : (w.reply l frame).peer l =
      { w.peer l with
        replied := (w.peer l).replied ++ [frame]
        inFlight := (w.peer l).inFlight ++ frame } := Surroundings.peer_setPeer_self w l _
  have hat : Frame [.link l] w (w.reply l frame) s s :=
    frame_at (Nat.le_refl _) (fun _ _ => rfl) (fun m hm => Surroundings.peer_setPeer_ne hm _)
      rfl rfl fun m => Surroundings.asked_reply l m frame
  have hasked : w.peer l ≠ {} := by
    intro hpeer
    rw [hpeer] at howed
    cases howed
  refine h.change hrest hrest rfl rfl rfl (fun m hm => ?_) (fun a ha => ?_)
    (hhonest.reply howed hframe)
  · obtain ⟨hnone, hpeer, hdials⟩ := hm
    have hne : m ≠ l := by
      rintro rfl
      exact hasked hpeer
    exact ⟨hnone, (Surroundings.peer_setPeer_ne hne _).trans hpeer, hdials⟩
  · cases hlink : s.link? l with
    | none => exact ha.absent hat rfl hlink fun hpeer => absurd hpeer hasked
    | some link =>
        refine ha.update hat rfl hlink hlink ?_ ?_
        · -- a host with nothing left to answer does not
          rintro _ ⟨_, hcount⟩
          exact absurd hcount (Nat.ne_of_lt howed)
        · intro sender got hanswering
          rw [hself]
          exact hanswering.reply frame

/-- A dial is over, one way or the other. -/
theorem undialed (h : Sound p w s [] []) (hrest : s.effects = []) (failure : Option Failure) :
    Sound p (w.deliver (.dialed l failure)) s [] [] := by
  have hhonest : w.Honest p := Surroundings.seen_of_rest w hrest ▸ h.honest
  have hframe : Frame [] w (w.deliver (.dialed l failure)) s s :=
    ⟨Nat.le_refl _, fun _ _ => rfl, fun _ _ => rfl, fun _ _ hd => List.mem_of_mem_filter hd,
      fun _ _ hid => hid, fun _ _ _ _ hk => hk⟩
  refine h.change hrest hrest rfl rfl rfl ?_ ?_ (hhonest.deliver _)
  · exact fun m hm => ⟨hm.1, hm.2.1, fun hd => hm.2.2 (List.mem_of_mem_filter hd)⟩
  · exact fun a ha => ha.frame hframe List.not_mem_nil

/-- A request under a new number was not sent yet. -/
theorem called {e : Errand} (h : Sound p w s [] []) (hrest : s.effects = [])
    (hid : e.id = w.calls.length) : Sound p (w.deliver (.execute e)) s [] [.unsent e] := by
  have hseen := Surroundings.seen_of_rest w hrest
  have hseen' := Surroundings.seen_of_rest (w.deliver (.execute e)) hrest
  have hhonest : w.Honest p := hseen ▸ h.honest
  have haccounted : Accounted w s ([] ++ s.assets []) := hseen ▸ h.accounted
  have hframe : Frame [.request e.id] w (w.deliver (.execute e)) s s :=
    ⟨Nat.le_refl _, fun _ _ => rfl, fun _ _ => rfl, fun _ _ hd => hd,
      fun _ _ hid => Surroundings.getElem?_concat hid, fun _ _ _ _ hk => hk⟩
  refine ⟨h.profile, h.numbered, h.recent, ?_, ?_, hseen'.symm ▸ hhonest.deliver _⟩
  · intro m hm
    rw [hseen']
    exact hseen ▸ h.unused m hm
  · -- the requests there are have smaller numbers
    rw [hseen']
    refine haccounted.add hframe (fun b hb hkey => ?_) ⟨?_, fun m k hsent => ?_⟩
    · cases b with
      | unsent e' =>
          have hcall := (haccounted.holds _ hb).1
          have hlt := (List.getElem?_eq_some_iff.mp hcall).1
          exact absurd ((Asset.Key.request.inj hkey).trans hid) (Nat.ne_of_lt hlt)
      | dialing | quiet | awaiting | spent => cases hkey
    · show (w.calls ++ [e.request])[e.id]? = some e.request
      rw [hid, List.getElem?_concat_length]
    · obtain ⟨bytes, hasked⟩ := hsent
      have hcall : w.calls[e.id]? = some bytes :=
        hhonest.ordered m _ (List.mem_of_getElem? hasked)
      have hlt := (List.getElem?_eq_some_iff.mp hcall).1
      exact absurd hid (Nat.ne_of_lt hlt)

/-! ## One event -/

/-- The task that reads a link while it is being dialled is the one that dialled it. -/
theorem dialing_of_reader {t : TaskId} {task : Task} (h : Sound p w s [] [])
    (hrest : s.effects = []) (ht : (t, task) ∈ s.tasks) (hlink : task.link? = some l)
    (hdial : l ∈ w.dials) : task.connecting? = some (.dialing l) := by
  have htaken := h.take ht List.not_mem_nil
  have hholds : ∀ a ∈ task.assets, a.key = .link l → a = .dialing l := by
    intro a ha hkey
    have hold := htaken.accounted.holds a (List.mem_append_left _ (List.mem_append_left _ ha))
    rw [Surroundings.seen_of_rest w hrest] at hold
    exact hold.dialing_of_mem hkey hdial
  cases hc : task.connecting? with
  | some c =>
      rw [Task.link?_connecting hc] at hlink
      cases hlink
      have hmem : c.asset ∈ task.assets := by
        rw [Task.assets_connecting hc]
        exact List.mem_cons_self
      cases c with
      | dialing m => rfl
      | authenticating m x => cases hholds _ hmem rfl
  | none =>
      cases task with
      | exchanging e conn x =>
          cases hlink
          cases hholds _ List.mem_cons_self rfl
      | watching link generation =>
          cases hlink
          cases hholds _ List.mem_cons_self rfl
      | entering | acquiring | lining | queued | handed | refilling | retrying => cases hlink
      | connecting | repairing | refillConnecting | opening | linking => cases hc

/-- The end of a dial reaches the task that dialled. -/
theorem dialEnded {failure : Option Failure} (h : Sound p w s [] []) (hrest : s.effects = [])
    (hoffer : l ∈ w.dials) :
    Sound p (w.deliver (.dialed l failure)) (s.react (.dialed l failure)) [] [] := by
  have hover : Sound p (w.deliver (.dialed l failure)) s [] [] := h.undialed hrest failure
  unfold Servant.react
  dsimp only
  split
  · rename_i t task hreader
    obtain ⟨ht, hlink⟩ := Servant.mem_of_reader? hreader
    have htaken := hover.take ht List.not_mem_nil
    -- what else could hold the link would know that its dial is over
    have hdialing := h.dialing_of_reader hrest ht hlink hoffer
    rw [Task.assets_connecting hdialing] at htaken
    split
    · refine htaken.dialSucceeded hdialing ?_
      rw [Surroundings.seen_of_rest _ hrest]
      intro hd
      exact absurd (List.mem_filter.mp hd).2 (by simp)
    · exact (htaken.mono (List.sublist_cons_self _ _).subperm).connectFailed hdialing _
  · exact hover

theorem react {ev : Event} (h : Sound p w s [] []) (hrest : s.effects = []) (hoffer : w.Offers ev) :
    Sound p (w.deliver ev) (s.react ev) [] [] := by
  cases ev with
  | execute e =>
      have hcalled : Sound p (w.deliver (.execute e)) s [] ((Task.entering e).assets ++ []) :=
        h.called hrest hoffer
      exact hcalled.spawn.emit fun _ => rfl
  | wake t =>
      unfold Servant.react
      dsimp only
      split
      · rename_i task htask
        exact h.wake (Servant.mem_of_task? htask)
      · exact h
  | dialed l failure => exact h.dialEnded hrest hoffer
  | received l bytes =>
      unfold Servant.react
      dsimp only
      split
      · rename_i link hlink
        exact (h.receive hrest hlink hoffer).linkMoved l
      · rename_i hlink
        exact h.lose hrest hlink bytes
  | ended l ending =>
      unfold Servant.react
      dsimp only
      split
      · rename_i link hlink
        exact (h.finish hrest hlink _).linkMoved l
      · exact h
  | alarm t =>
      unfold Servant.react
      dsimp only
      split
      · rename_i e conn x htask
        have htaken : Sound p w s [t] (.awaiting conn.link (some e.id) x :: []) :=
          h.take (Servant.mem_of_task? htask) List.not_mem_nil
        exact (htaken.spend rfl htaken.holds.awaiting_spent).exchangeFailed _
      · rename_i generation htask
        have htaken := h.take (Servant.mem_of_task? htask) List.not_mem_nil
        refine Sound.dial [] (fun _ => rfl) ?_
        exact htaken.of_same rfl rfl
      · exact h
  | start call => exact h.begin (.caller call)
  | reconnect => exact h.reconnect s.generation
  | stop =>
      have hstopped : Sound p w { s.shutdown with generation := s.generation + 1 } [] [] :=
        h.shutdown.of_same rfl rfl
      exact hstopped.signal

/-- At the end of a step what was asked for has been done. -/
theorem settle (h : Sound p w s [] []) : Sound p (w.seen s) { s with effects := [] } [] [] :=
  ⟨h.profile, h.numbered, h.recent, h.unused, ⟨h.accounted.apart, h.accounted.holds⟩, h.honest⟩

theorem initial (p : Profile) : Sound p {} (.ofProfile p) [] [] := by
  refine ⟨rfl, List.nodup_nil, fun q hq => absurd hq List.not_mem_nil, ?_, ?_, ?_⟩
  · exact fun l _ => ⟨rfl, rfl, List.not_mem_nil⟩
  · exact ⟨List.nodup_nil, fun a ha => absurd ha List.not_mem_nil⟩
  · refine ⟨fun _ => Nat.le_refl _, fun _ frame hframe => absurd hframe List.not_mem_nil,
      fun _ q hq => absurd hq List.not_mem_nil, ?_, fun _ _ hid => absurd hid List.not_mem_nil⟩
    rintro id l k l' k' ⟨bytes, hk⟩ _
    cases hk

end Sound

/-! ## Whole runs -/

namespace System

/-- **Every reachable state is sound**, and between steps nothing remains to be done. -/
theorem sound {sys : System} (h : Reachable p sys) :
    sys.servant.effects = [] ∧ Sound p sys.around sys.servant [] [] := by
  induction h with
  | initial => exact ⟨rfl, Sound.initial p⟩
  | event _ hoffer ih =>
      obtain ⟨hrest, hsound⟩ := ih
      exact ⟨rfl, (hsound.react hrest hoffer).settle⟩
  | reply _ howed hframe ih =>
      obtain ⟨hrest, hsound⟩ := ih
      exact ⟨hrest, hsound.reply hrest howed hframe⟩

/-- **No reply crosses over to another request.** Whenever no step is under way, on a connection
that is idle or was handed to a waiter everything written was answered, and every answer was read.
Of what is written to hosts, each piece is the password or just the bytes of one request, and no
request is written twice. A request that is answered with bytes is answered with the frame with
which a host answered the write of that request. -/
theorem no_reply_crosses {sys : System} (h : Reachable p sys) :
    (∀ conn ∈ sys.servant.pool.idle, QuietOn sys.around sys.servant conn.link) ∧
    (∀ t e conn, (t, Task.handed e conn) ∈ sys.servant.tasks →
      QuietOn sys.around sys.servant conn.link) ∧
    (∀ l, ∀ q ∈ (sys.around.peer l).asked, sys.around.Ordered p q) ∧
    (∀ id l k l' k', sys.around.Sent id l k → sys.around.Sent id l' k' → l = l' ∧ k = k') ∧
    ∀ id frame, (id, .ok frame) ∈ sys.around.answers → sys.around.Vouched id frame := by
  obtain ⟨hrest, hsound⟩ := sound h
  have hhonest := hsound.honest
  have hholds := hsound.accounted.holds
  rw [Surroundings.seen_of_rest _ hrest] at hhonest hholds
  refine ⟨?_, ?_, hhonest.ordered, hhonest.once, hhonest.vouched⟩
  · intro conn hconn
    have hidle : Asset.quiet conn.link ∈ sys.servant.assets [] :=
      List.mem_append_left _ (List.mem_map_of_mem hconn)
    exact (hholds _ hidle).2.2
  · intro t e conn ht
    have hhanded : Asset.quiet conn.link ∈ sys.servant.assets [] := by
      refine List.mem_append_right _ (List.mem_flatMap.mpr ⟨_, List.mem_filter.mpr ⟨ht, rfl⟩, ?_⟩)
      exact List.mem_cons_of_mem _ List.mem_cons_self
    exact (hholds _ hhanded).2.2

/-- A host that may take 50 ms to answer, with room for one connection. -/
def slowHost : Profile :=
  { name := "a", address := "10.0.0.1:6379", master := true, poolSize := 1, timeoutMs := some 50 }

/-- One request, `GA`, has timed out before its answer `+A` comes in. Another, `GB`, waited for the
connection, is handed it once it was repaired, and is answered with `+B`. -/
def lateReply : System :=
  initial slowHost
    |>.react (.start 0) |>.react (.dialed 0 none) |>.react (.dialed 1 none)
    |>.react (.execute ⟨0, [71, 65]⟩) |>.react (.wake 2) |>.react (.wake 2)
    |>.react (.execute ⟨1, [71, 66]⟩) |>.react (.wake 3) |>.react (.wake 3) |>.react (.wake 3)
    |>.react (.alarm 2) |>.reply 0 [43, 65, 13, 10] |>.react (.received 0 [43, 65, 13, 10])
    |>.react (.dialed 2 none) |>.react (.wake 3)
    |>.reply 2 [43, 66, 13, 10] |>.react (.received 2 [43, 66, 13, 10])

/-- The late `+A` reaches nobody. -/
theorem no_late_reply_crosses :
    Reachable slowHost lateReply ∧
      lateReply.around.answers =
        [(0, .error slowHost.exchangeTimedOut), (1, .ok [43, 66, 13, 10])] ∧
      QuietOn lateReply.around lateReply.servant 2 ∧
      lateReply.around.Vouched 1 [43, 66, 13, 10] := by
  have hlate : ∃ v, Wire.Derives [43, 65, 13, 10] v :=
    ⟨_, .status (show Wire.cr ∉ [65] by decide)⟩
  have hanswer : ∃ v, Wire.Derives [43, 66, 13, 10] v :=
    ⟨_, .status (show Wire.cr ∉ [66] by decide)⟩
  have hreachable : Reachable slowHost lateReply := by
    refine .event (.reply (.event (.event (.event (.reply (.event (.event (.event (.event
      (.event (.event (.event (.event (.event (.event (.event .initial ?_) ?_) ?_) ?_) ?_) ?_)
      ?_) ?_) ?_) ?_) ?_) ?_ hlate) ?_) ?_) ?_) ?_ hanswer) ?_
    all_goals decide
  have hanswers : lateReply.around.answers =
      [(0, .error slowHost.exchangeTimedOut), (1, .ok [43, 66, 13, 10])] := rfl
  have hconn : (⟨0, 2⟩ : Conn) ∈ lateReply.servant.pool.idle := by decide
  obtain ⟨hidle, _, _, _, hvouched⟩ := no_reply_crosses hreachable
  refine ⟨hreachable, hanswers, hidle _ hconn, hvouched 1 _ ?_⟩
  rw [hanswers]
  exact List.mem_cons_of_mem _ List.mem_cons_self

end System

end ShardProxy.Backend
