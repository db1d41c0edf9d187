import ShardProxy.Proofs.Backend.Link
import ShardProxy.Proofs.Backend.System

/-!
# What links have carried

* `Peer.Answering` — what has come in of an answer that is awaited;
* `Surroundings.Honest` — every write is the password or the one copy of a request, every answer
  the frame with which a host answered the write of that request.
-/

namespace ShardProxy.Backend

namespace Peer

/-- The last write was for `sender`, and `got` is what came in of its answer. The rest of the
answer is in flight, or nothing was answered yet. -/
def Answering (p : Peer) (sender : Option RequestId) (got : Bytes) : Prop :=
  ∃ earlier bytes, p.asked = earlier ++ [⟨sender, bytes⟩] ∧ earlier.length ≤ p.replied.length ∧
    got ++ p.inFlight = (p.replied.drop earlier.length).flatten

theorem Settled.answering {p : Peer} (h : p.Settled) (q : Write) :
    { p with asked := p.asked ++ [q] }.Answering q.sender [] := by
  obtain ⟨hflight, hcount⟩ := h
  refine ⟨p.asked, q.bytes, rfl, hcount.ge, ?_⟩
  show [] ++ p.inFlight = (p.replied.drop p.asked.length).flatten
  rw [hflight, ← hcount, List.drop_length]
  rfl

theorem Answering.reply {p : Peer} {sender : Option RequestId} {got : Bytes}
    (h : p.Answering sender got) (frame : Bytes) :
    { p with replied := p.replied ++ [frame], inFlight := p.inFlight ++ frame }.Answering
      sender got := by
  obtain ⟨earlier, bytes, hasked, hcount, hgot⟩ := h
  refine ⟨earlier, bytes, hasked, ?_, ?_⟩
  · show earlier.length ≤ (p.replied ++ [frame]).length
    rw [List.length_append]
    omega
  · show got ++ (p.inFlight ++ frame) = ((p.replied ++ [frame]).drop earlier.length).flatten
    rw [List.drop_append_of_le_length hcount, List.flatten_append, ← hgot, List.append_assoc]
    simp

theorem Answering.receive {p : Peer} {sender : Option RequestId} {got bytes : Bytes}
    (h : p.Answering sender got) (hbytes : bytes <+: p.inFlight) :
    { p with inFlight := p.inFlight.drop bytes.length }.Answering sender (got ++ bytes) := by
  obtain ⟨earlier, sent, hasked, hcount, hgot⟩ := h
  refine ⟨earlier, sent, hasked, hcount, ?_⟩
  show got ++ bytes ++ p.inFlight.drop bytes.length = _
  obtain ⟨rest, hrest⟩ := hbytes
  rw [← hgot, ← hrest, List.drop_left, List.append_assoc]

/-- Once a reply was read nothing is outstanding, and the reply is the answer to the last write. -/
theorem Answering.settled {p : Peer} {sender : Option RequestId} {x : Exchange} {link link' : Link}
    {frame : Bytes} (h : p.Answering sender (x.received ++ link.unread))
    (hcounted : p.replied.length ≤ p.asked.length)
    (hframed : ∀ f ∈ p.replied, ∃ v, Wire.Derives f v)
    (hread : link.read x = (.reply frame, link')) :
    link'.unread = [] ∧ p.Settled ∧ ∃ (k : Nat) (bytes : Bytes),
      p.asked[k]? = some ⟨sender, bytes⟩ ∧ p.replied[k]? = some frame := by
  obtain ⟨earlier, bytes, hasked, hcount, hgot⟩ := h
  have hlen : p.asked.length = earlier.length + 1 := by rw [hasked, List.length_append]; rfl
  by_cases hnone : p.replied.length = earlier.length
  · -- nothing was answered, so there were no bytes to read a reply from
    rw [← hnone, List.drop_length, List.flatten_nil, List.append_eq_nil_iff] at hgot
    obtain ⟨v, rest, hv, hbytes⟩ := Link.readSteps_reply hread
    have hshort := Wire.derives_length hv
    have hempty := congrArg List.length hbytes
    rw [hgot.1, List.length_append] at hempty
    simp only [List.length_nil] at hempty
    omega
  · -- one answer more than there were earlier writes, so what is outstanding is that answer
    have hlast : earlier.length < p.replied.length := by omega
    have hanswer : p.replied.drop earlier.length = [p.replied[earlier.length]] := by
      rw [List.drop_eq_getElem_cons hlast, List.drop_eq_nil_of_le (by omega)]
    rw [hanswer, List.flatten_singleton] at hgot
    obtain ⟨v, hv⟩ := hframed _ (List.getElem_mem hlast)
    obtain ⟨hframe, hunread, hflight⟩ := Link.read_reply hread hv hgot
    refine ⟨hunread, ⟨hflight, by omega⟩, earlier.length, bytes, ?_, ?_⟩
    · rw [hasked, List.getElem?_append_right (Nat.le_refl _), Nat.sub_self]
      rfl
    · rw [hframe]
      exact List.getElem?_eq_getElem hlast

end Peer

namespace Surroundings

/-- The `k`-th write on link `l` was for request `id`. -/
def Sent (w : Surroundings) (id : RequestId) (l : LinkId) (k : Nat) : Prop :=
  ∃ bytes, (w.peer l).asked[k]? = some ⟨some id, bytes⟩

/-- A write for a request has just its bytes, and any other write is the one that presents the
password. -/
def Ordered (w : Surroundings) (p : Profile) (q : Write) : Prop :=
  match q.sender with
  | some id => w.calls[id]? = some q.bytes
  | none => ∃ password, p.password = some password ∧ q.bytes = Profile.authRequest password

/-- Some host was sent a request, and `frame` is the frame with which it answered just that. -/
def Vouched (w : Surroundings) (id : RequestId) (frame : Bytes) : Prop :=
  ∃ (l : LinkId) (k : Nat) (request : Bytes), w.calls[id]? = some request ∧
    (w.peer l).asked[k]? = some ⟨some id, request⟩ ∧ (w.peer l).replied[k]? = some frame

structure Honest (w : Surroundings) (p : Profile) : Prop where
  counted : ∀ l, (w.peer l).replied.length ≤ (w.peer l).asked.length
  framed : ∀ l, ∀ frame ∈ (w.peer l).replied, ∃ v, Wire.Derives frame v
  ordered : ∀ l, ∀ q ∈ (w.peer l).asked, w.Ordered p q
  once : ∀ id l k l' k', w.Sent id l k → w.Sent id l' k' → l = l' ∧ k = k'
  vouched : ∀ id frame, (id, .ok frame) ∈ w.answers → w.Vouched id frame

/-! ## What changes in the surroundings -/

variable {w w' : Surroundings} {p : Profile}

@[simp] theorem peer_setPeer_self (w : Surroundings) (l : LinkId) (q : Peer) :
    (w.setPeer l q).peer l = q := by
  show Function.update w.peer l q l = q
  rw [Function.update_self]

theorem peer_setPeer_ne {l m : LinkId} (h : m ≠ l) (q : Peer) :
    (w.setPeer l q).peer m = w.peer m := by
  show Function.update w.peer l q m = w.peer m
  rw [Function.update_of_ne h]

/-- A part of every peer that a change to one of them leaves as it is. -/
theorem setPeer_same {α : Type} (part : Peer → α) {l : LinkId} {q : Peer}
    (h : part q = part (w.peer l)) (m : LinkId) :
    part ((w.setPeer l q).peer m) = part (w.peer m) := by
  by_cases hm : m = l
  · subst hm
    rw [peer_setPeer_self, h]
  · rw [peer_setPeer_ne hm]

theorem replied_write (l m : LinkId) (q : Write) :
    ((w.write l q).peer m).replied = (w.peer m).replied := by
  unfold write
  rw [setPeer_same Peer.replied]
  rfl

theorem asked_reply (l m : LinkId) (frame : Bytes) :
    ((w.reply l frame).peer m).asked = (w.peer m).asked := by
  unfold reply
  rw [setPeer_same Peer.asked]
  rfl

theorem asked_deliver (ev : Event) (m : LinkId) :
    ((w.deliver ev).peer m).asked = (w.peer m).asked := by
  cases ev with
  | received =>
      unfold deliver
      rw [setPeer_same Peer.asked]
      rfl
  | execute | dialed | wake | ended | alarm | start | reconnect | stop => rfl

theorem replied_deliver (ev : Event) (m : LinkId) :
    ((w.deliver ev).peer m).replied = (w.peer m).replied := by
  cases ev with
  | received =>
      unfold deliver
      rw [setPeer_same Peer.replied]
      rfl
  | execute | dialed | wake | ended | alarm | start | reconnect | stop => rfl

theorem getElem?_concat {α : Type} {as : List α} {a b : α} {k : Nat} (h : as[k]? = some b) :
    (as ++ [a])[k]? = some b := by
  rw [List.getElem?_append_left (List.getElem?_eq_some_iff.mp h).1]
  exact h

/-- A write is the last one on its link. -/
theorem asked_write {l m : LinkId} {k : Nat} {q r : Write}
    (h : ((w.write l q).peer m).asked[k]? = some r) :
    (w.peer m).asked[k]? = some r ∨ (m = l ∧ k = (w.peer l).asked.length ∧ r = q) := by
  unfold write at h
  by_cases hm : m = l
  · subst hm
    rw [peer_setPeer_self] at h
    rcases Nat.lt_or_ge k (w.peer m).asked.length with hlt | hge
    · rw [List.getElem?_append_left hlt] at h
      exact .inl h
    · rw [List.getElem?_append_right hge, List.getElem?_singleton] at h
      split at h
      · cases h
        exact .inr ⟨rfl, by omega, rfl⟩
      · cases h
  · rw [peer_setPeer_ne hm] at h
    exact .inl h

theorem Sent.of_write {id : RequestId} {l m : LinkId} {k : Nat} {q : Write}
    (h : (w.write l q).Sent id m k) :
    w.Sent id m k ∨ (m = l ∧ k = (w.peer l).asked.length ∧ q.sender = some id) := by
  obtain ⟨bytes, hasked⟩ := h
  rcases asked_write hasked with hold | ⟨hm, hk, hq⟩
  · exact .inl ⟨bytes, hold⟩
  · exact .inr ⟨hm, hk, by rw [← hq]⟩

/-- Later surroundings: more may have been called for and sent, but what was stays. -/
structure Extends (w w' : Surroundings) : Prop where
  calls : ∀ (id : RequestId) (request : Bytes),
    w.calls[id]? = some request → w'.calls[id]? = some request
  asked : ∀ (l : LinkId) (k : Nat) (q : Write),
    (w.peer l).asked[k]? = some q → (w'.peer l).asked[k]? = some q
  replied : ∀ (l : LinkId) (k : Nat) (frame : Bytes),
    (w.peer l).replied[k]? = some frame → (w'.peer l).replied[k]? = some frame

theorem Ordered.extend {q : Write} (h : w.Ordered p q) (hw : Extends w w') : w'.Ordered p q := by
  unfold Ordered at h ⊢
  split
  · rename_i id hid
    rw [hid] at h
    exact hw.calls id q.bytes h
  · rename_i hid
    rw [hid] at h
    exact h

theorem Vouched.extend {id : RequestId} {frame : Bytes} (h : w.Vouched id frame)
    (hw : Extends w w') : w'.Vouched id frame := by
  obtain ⟨l, k, request, hcall, hasked, hreplied⟩ := h
  exact ⟨l, k, request, hw.calls id request hcall, hw.asked l k _ hasked,
    hw.replied l k frame hreplied⟩

theorem extends_write (w : Surroundings) (l : LinkId) (q : Write) : Extends w (w.write l q) where
  calls := fun _ _ h => h
  asked := by
    intro m k r h
    unfold write
    by_cases hm : m = l
    · subst hm
      rw [peer_setPeer_self]
      exact getElem?_concat h
    · rw [peer_setPeer_ne hm]
      exact h
  replied := by
    intro m k frame h
    rw [replied_write]
    exact h

theorem extends_reply (w : Surroundings) (l : LinkId) (frame : Bytes) :
    Extends w (w.reply l frame) where
  calls := fun _ _ h => h
  asked := by
    intro m k r h
    rw [asked_reply]
    exact h
  replied := by
    intro m k sent h
    unfold reply
    by_cases hm : m = l
    · subst hm
      rw [peer_setPeer_self]
      exact getElem?_concat h
    · rw [peer_setPeer_ne hm]
      exact h

theorem extends_deliver (w : Surroundings) (ev : Event) : Extends w (w.deliver ev) where
  calls := by
    intro id request h
    cases ev with
    | execute e => exact getElem?_concat h
    | received | dialed | wake | ended | alarm | start | reconnect | stop => exact h
  asked := by
    intro m k r h
    rw [asked_deliver]
    exact h
  replied := by
    intro m k frame h
    rw [replied_deliver]
    exact h

namespace Honest

/-- A write that is in order, for a request that was not sent before. -/
theorem write (h : w.Honest p) {l : LinkId} {q : Write} (hq : w.Ordered p q)
    (hnew : ∀ id, q.sender = some id → ∀ m k, ¬ w.Sent id m k) : (w.write l q).Honest p := by
  have hext := extends_write w l q
  refine ⟨fun m => ?_, fun m frame hframe => ?_, fun m r hr => ?_, ?_, fun id frame hid => ?_⟩
  · have hcount := h.counted m
    rw [replied_write]
    unfold Surroundings.write
    by_cases hm : m = l
    · subst hm
      rw [peer_setPeer_self]
      exact Nat.le_trans hcount (List.prefix_append _ [q]).length_le
    · rw [peer_setPeer_ne hm]
      exact hcount
  · rw [replied_write] at hframe
    exact h.framed m frame hframe
  · obtain ⟨k, hk⟩ := List.mem_iff_getElem?.mp hr
    rcases asked_write hk with hold | ⟨_, _, rfl⟩
    · exact (h.ordered m r (List.mem_of_getElem? hold)).extend hext
    · exact hq.extend hext
  · intro id m k m' k' hk hk'
    -- the new write is for no request that was sent before, so it meets only itself
    rcases hk.of_write with hold | ⟨rfl, rfl, hid⟩
    · rcases hk'.of_write with hold' | ⟨_, _, hid'⟩
      · exact h.once id m k m' k' hold hold'
      · exact absurd hold (hnew id hid' m k)
    · rcases hk'.of_write with hold' | ⟨rfl, rfl, _⟩
      · exact absurd hold' (hnew id hid m' k')
      · exact ⟨rfl, rfl⟩
  · exact (h.vouched id frame hid).extend hext

/-- A host answers with a frame what it has not answered. -/
theorem reply (h : w.Honest p) {l : LinkId} {frame : Bytes}
    (howed : (w.peer l).replied.length < (w.peer l).asked.length)
    (hframe : ∃ v, Wire.Derives frame v) : (w.reply l frame).Honest p := by
  have hext := extends_reply w l frame
  have hsent : ∀ {id m k}, (w.reply l frame).Sent id m k → w.Sent id m k := by
    rintro id m k ⟨bytes, hk⟩
    rw [asked_reply] at hk
    exact ⟨bytes, hk⟩
  refine ⟨fun m => ?_, fun m sent hsent => ?_, fun m q hq => ?_, ?_, fun id sent hid => ?_⟩
  · rw [asked_reply]
    unfold Surroundings.reply
    by_cases hm : m = l
    · subst hm
      rw [peer_setPeer_self, List.length_append]
      exact howed
    · rw [peer_setPeer_ne hm]
      exact h.counted m
  · unfold Surroundings.reply at hsent
    by_cases hm : m = l
    · subst hm
      rw [peer_setPeer_self] at hsent
      rcases List.mem_append.mp hsent with hold | hnew
      · exact h.framed m sent hold
      · rw [List.mem_singleton.mp hnew]
        exact hframe
    · rw [peer_setPeer_ne hm] at hsent
      exact h.framed m sent hsent
  · rw [asked_reply] at hq
    exact (h.ordered m q hq).extend hext
  · intro id m k m' k' hk hk'
    exact h.once id m k m' k' (hsent hk) (hsent hk')
  · exact (h.vouched id sent hid).extend hext

/-- An answer to the write of a request is the answer to the request. -/
theorem vouch (h : w.Honest p) {id : RequestId} {l : LinkId} {k : Nat} {bytes frame : Bytes}
    (hasked : (w.peer l).asked[k]? = some ⟨some id, bytes⟩)
    (hreplied : (w.peer l).replied[k]? = some frame) : w.Vouched id frame :=
  ⟨l, k, bytes, h.ordered l _ (List.mem_of_getElem? hasked), hasked, hreplied⟩

/-- A request is answered with a failure, or with the frame that a host sent for it. -/
theorem answer (h : w.Honest p) {id : RequestId} {result : Except Failure Bytes}
    (hresult : ∀ frame, result = .ok frame → w.Vouched id frame) :
    (w.perform (.answer id result)).Honest p := by
  refine ⟨h.counted, h.framed, h.ordered, h.once, fun other frame hframe => ?_⟩
  rcases List.mem_append.mp hframe with hold | hnew
  · exact h.vouched other frame hold
  · rw [List.mem_singleton, Prod.mk.injEq] at hnew
    obtain ⟨rfl, hok⟩ := hnew
    exact hresult frame hok.symm

/-- An event that reaches the servant changes nothing of what was sent and answered. -/
theorem deliver (h : w.Honest p) (ev : Event) : (w.deliver ev).Honest p := by
  have hext := extends_deliver w ev
  have hsent : ∀ {id m k}, (w.deliver ev).Sent id m k → w.Sent id m k := by
    rintro id m k ⟨bytes, hk⟩
    rw [asked_deliver] at hk
    exact ⟨bytes, hk⟩
  have hanswers : (w.deliver ev).answers = w.answers := by cases ev <;> rfl
  refine ⟨fun m => ?_, fun m frame hframe => ?_, fun m q hq => ?_, ?_, fun id frame hid => ?_⟩
  · rw [asked_deliver, replied_deliver]
    exact h.counted m
  · rw [replied_deliver] at hframe
    exact h.framed m frame hframe
  · rw [asked_deliver] at hq
    exact (h.ordered m q hq).extend hext
  · intro id m k m' k' hk hk'
    exact h.once id m k m' k' (hsent hk) (hsent hk')
  · rw [hanswers] at hid
    exact (h.vouched id frame hid).extend hext

end Honest

end Surroundings

end ShardProxy.Backend
