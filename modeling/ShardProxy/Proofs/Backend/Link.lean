import ShardProxy.Backend.Link
import ShardProxy.Proofs.Wire.Messages

/-!
# What links and exchanges keep

Reading moves bytes from a link to an exchange, in order. The reply is a frame at the front of
them; so where one frame is all that there is, the reply is that frame and nothing is left.
-/

namespace ShardProxy.Backend

namespace Exchange

/-- An exchange that goes on waiting has gathered all it was fed. -/
theorem received_of_waiting {e e' : Exchange} {bytes : Bytes} (h : e.feed bytes = .waiting e') :
    e'.received = e.received ++ bytes := by
  unfold feed at h
  dsimp only at h
  split at h
  · cases h
  · cases h
    rfl
  · cases h

/-- A reply is a frame at the front of what was gathered. -/
theorem derives_of_reply {e : Exchange} {bytes frame : Bytes} (h : e.feed bytes = .reply frame) :
    ∃ v rest, Wire.Derives frame v ∧ e.received ++ bytes = frame ++ rest := by
  unfold feed at h
  dsimp only at h
  split at h
  · rename_i n rest hn
    obtain ⟨part, v, hv, hsplit, rfl⟩ := Wire.frameLength_done_iff.mp hn
    cases h
    refine ⟨v, rest, ?_, ?_⟩
    · rw [hsplit, List.take_left]
      exact hv
    · rw [hsplit, List.take_left]
  · cases h
  · cases h

end Exchange

namespace Link

theorem readSteps_waiting {e e' : Exchange} {l l' : Link} {fuel : Nat}
    (h : l.readSteps e fuel = (.waiting e', l')) :
    e'.received ++ l'.unread = e.received ++ l.unread := by
  induction fuel generalizing e l with
  | zero =>
      cases h
      rfl
  | succ fuel ih =>
      unfold readSteps at h
      split at h
      · split at h
        · cases h
          rfl
        · cases h
      · dsimp only at h
        split at h
        · rename_i next hfeed
          have hnext := ih h
          rw [hnext, Exchange.received_of_waiting hfeed, List.append_assoc,
            List.take_append_drop]
        · rename_i verdict hverdict hfeed
          rw [Prod.mk.injEq] at h
          exact absurd h.1 (hfeed e')

theorem readSteps_reply {e : Exchange} {l l' : Link} {frame : Bytes} {fuel : Nat}
    (h : l.readSteps e fuel = (.reply frame, l')) :
    ∃ v rest, Wire.Derives frame v ∧ e.received ++ l.unread = frame ++ (rest ++ l'.unread) := by
  induction fuel generalizing e l with
  | zero => cases h
  | succ fuel ih =>
      unfold readSteps at h
      split at h
      · split at h
        · cases h
        · cases h
      · dsimp only at h
        split at h
        · rename_i next hfeed
          obtain ⟨v, rest, hv, hbytes⟩ := ih h
          refine ⟨v, rest, hv, ?_⟩
          rw [← hbytes, Exchange.received_of_waiting hfeed, List.append_assoc,
            List.take_append_drop]
        · rename_i verdict hverdict hfeed
          rw [Prod.mk.injEq] at h
          obtain ⟨hreply, rfl⟩ := h
          obtain ⟨v, rest, hv, hbytes⟩ := Exchange.derives_of_reply hreply
          refine ⟨v, rest, hv, ?_⟩
          rw [← List.append_assoc, ← hbytes, List.append_assoc, List.take_append_drop]

/-- Reading moves bytes from the link to the exchange. -/
theorem read_waiting {e e' : Exchange} {l l' : Link} (h : l.read e = (.waiting e', l')) :
    e'.received ++ l'.unread = e.received ++ l.unread := readSteps_waiting h

/-- Where a frame is all that there is or will be, the reply is that frame, and no byte of it is
left, neither on the link nor behind it. -/
theorem read_reply {e : Exchange} {l l' : Link} {frame behind whole : Bytes} {v : Wire.Value}
    (h : l.read e = (.reply frame, l')) (hwhole : Wire.Derives whole v)
    (hbytes : e.received ++ l.unread ++ behind = whole) :
    frame = whole ∧ l'.unread = [] ∧ behind = [] := by
  obtain ⟨w, rest, hw, hgot⟩ := readSteps_reply h
  have hsame : frame ++ (rest ++ l'.unread ++ behind) = whole ++ [] := by
    rw [List.append_nil, ← hbytes, hgot]
    simp only [List.append_assoc]
  obtain ⟨hframe, _⟩ := Wire.derives_unique hw hwhole hsame
  refine ⟨hframe, ?_⟩
  rw [hframe] at hsame
  have hrest := List.append_cancel_left hsame
  simp only [List.append_eq_nil_iff] at hrest
  exact ⟨hrest.1.2, hrest.2⟩

end Link

end ShardProxy.Backend
