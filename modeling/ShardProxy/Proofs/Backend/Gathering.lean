import ShardProxy.Proofs.Backend.Link
import ShardProxy.Proofs.Net.Stream

/-!
# Gathering a reply

An exchange looks at all the bytes that it has whenever more come in. What it finds in the end does
not depend on the pieces: a verdict on the bytes so far is the verdict on all of them.

* `Begins`, `Spoilt` — bytes that settle an exchange, one way or the other;
* `outcome` — what all the bytes of a backend come to;
* `readReply_spec` — reading piece by piece comes to the same;
* `run_gathers_reply` — a whole exchange, whatever the pieces.
-/

namespace ShardProxy.Net.Script

/-- What is written and read falls into items; a read opens at most one more. -/
theorem out_of_read {s s' : Script} {room : Nat} {found : Found} (h : s.read room = (found, s')) :
    s'.out = s.out ∨ s'.out = s.out ++ [[]] := by
  unfold read at h
  split at h
  · cases h
    exact .inl rfl
  · cases h
    exact .inl rfl
  · split at h
    · cases h
      exact .inl rfl
    · cases h
      exact .inr rfl

/-- Where there is room, a read that finds bytes finds one at least. -/
theorem ne_nil_of_read {s s' : Script} {room : Nat} (hroom : 0 < room) {b : Bytes}
    (h : s.read room = (.bytes b, s')) : b ≠ [] := by
  unfold read at h
  split at h
  · cases h
  · cases h
  · rename_i piece rest _
    split at h
    · rename_i hlong
      cases h
      simp only [ne_eq, List.take_eq_nil_iff, not_or]
      exact ⟨by omega, fun hnil => by simp [hnil] at hlong⟩
    · split at h
      · cases h
      · rename_i hpiece
        cases h
        simpa using hpiece

end ShardProxy.Net.Script

namespace ShardProxy.Backend.Exchange

/-- Some bytes begin with a complete frame. -/
def Begins (frame bytes : Bytes) : Prop := ∃ v rest, Wire.Derives frame v ∧ bytes = frame ++ rest

/-- Some bytes begin with what no further bytes can make a frame. -/
def Spoilt (why : Wire.Defect) (bytes : Bytes) : Prop :=
  ∃ bad rest, bad ≠ [] ∧ Wire.frameLength bad = .malformed why ∧ bytes = bad ++ rest

/-- What all the bytes of a backend come to. -/
def outcome (bytes : Bytes) : Except Failure Bytes :=
  if bytes = [] then .error .closedByBackend
  else match Wire.frameLength bytes with
    | .done n _ => .ok (bytes.take n)
    | .incomplete => .error .closedByBackend
    | .malformed why => .error (.badReply why)

/-! ## Verdicts -/

theorem frameLength_malformed {b : Bytes} {why : Wire.Defect} (hb : b ≠ [])
    (h : Wire.frameLength b = .malformed why) (s : Bytes) :
    Wire.frameLength (b ++ s) = .malformed why := by
  rw [Wire.frameLength_eq] at h ⊢
  rcases Wire.Scan.andThen_eq_malformed.mp h with hread | ⟨m, rest, _, hdone⟩
  · rw [Wire.Message.read_malformed hb hread s]
    rfl
  · cases hdone

theorem outcome_of_begins {frame bytes : Bytes} (h : Begins frame bytes) :
    outcome bytes = .ok frame := by
  obtain ⟨v, rest, hv, rfl⟩ := h
  have hne : frame ++ rest ≠ [] := by
    have hlen := Wire.derives_length hv
    intro hnil
    simp [(List.append_eq_nil_iff.mp hnil).1] at hlen
  have hread : Wire.frameLength (frame ++ rest) = .done frame.length rest :=
    Wire.frameLength_done_iff.mpr ⟨frame, v, hv, rfl, rfl⟩
  simp only [outcome, if_neg hne, hread, List.take_left]

theorem outcome_of_spoilt {why : Wire.Defect} {bytes : Bytes} (h : Spoilt why bytes) :
    outcome bytes = .error (.badReply why) := by
  obtain ⟨bad, rest, hbad, hwhy, rfl⟩ := h
  have hne : bad ++ rest ≠ [] := fun hnil => hbad (List.append_eq_nil_iff.mp hnil).1
  simp only [outcome, if_neg hne, frameLength_malformed hbad hwhy]

theorem outcome_of_neither {bytes : Bytes} (hframe : ∀ frame, ¬ Begins frame bytes)
    (hfault : ∀ why, ¬ Spoilt why bytes) : outcome bytes = .error .closedByBackend := by
  unfold outcome
  split
  · rfl
  · rename_i hne
    cases h : Wire.frameLength bytes with
    | done n rest =>
        obtain ⟨part, v, hv, hsplit, _⟩ := Wire.frameLength_done_iff.mp h
        exact absurd ⟨v, rest, hv, hsplit⟩ (hframe part)
    | incomplete => rfl
    | malformed why =>
        exact absurd ⟨bytes, [], hne, h, (List.append_nil bytes).symm⟩ (hfault why)

/-! ## Reading -/

/-- **A read** settles the exchange with the outcome of all bytes, or leaves it with bytes that
have no verdict yet. -/
theorem feed_cases (e : Exchange) {b : Bytes} (hb : b ≠ []) (later : Bytes) :
    (∃ frame, e.feed b = .reply frame ∧ outcome (e.received ++ b ++ later) = .ok frame) ∨
    (∃ why, e.feed b = .failed why ∧ outcome (e.received ++ b ++ later) = .error why) ∨
    ∃ e', e.feed b = .waiting e' ∧ e'.received = e.received ++ b ∧
      Wire.frameLength e'.received = .incomplete := by
  have hgot : e.received ++ b ≠ [] := by simp [hb]
  cases h : Wire.frameLength (e.received ++ b) with
  | done n rest =>
      obtain ⟨part, v, hv, hsplit, rfl⟩ := Wire.frameLength_done_iff.mp h
      refine .inl ⟨part, ?_, outcome_of_begins ⟨v, rest ++ later, hv, ?_⟩⟩
      · simp only [feed, h]
        rw [hsplit, List.take_left]
      · rw [hsplit, List.append_assoc]
  | malformed why =>
      refine .inr (.inl ⟨.badReply why, by simp [feed, h], outcome_of_spoilt ?_⟩)
      exact ⟨e.received ++ b, later, hgot, h, rfl⟩
  | incomplete =>
      exact .inr (.inr ⟨⟨e.received ++ b, e.window.makeRoom e.received.length⟩,
        by simp [feed, h], rfl, h⟩)

theorem room_pos (e : Exchange) : 0 < e.room := Net.Window.room_pos _ _

/-- Reading piece by piece comes to the outcome of all bytes, and writes nothing. -/
theorem readReply_spec (fuel : Nat) (e : Exchange) (s : Net.Script) (hsteady : s.Steady)
    (hwaiting : e.received = [] ∨ Wire.frameLength e.received = .incomplete)
    (hfuel : s.readsLeft ≤ fuel) :
    (e.readReply s fuel).1 = outcome (e.received ++ s.inbound) ∧
      ∃ reads, (e.readReply s fuel).2.out = s.out ++ List.replicate reads [] := by
  induction fuel generalizing e s with
  | zero =>
      have hpos := s.readsLeft_pos
      omega
  | succ fuel ih =>
      rcases Net.Script.read_cases hsteady e.room_pos with
        ⟨hnone, hread⟩ | ⟨b, next, hread, hb, hsteady', _, _, _, _, hleft⟩
      · -- the end, and what is there has no verdict
        have hclosed : outcome e.received = .error .closedByBackend := by
          rcases hwaiting with hnil | hwaiting
          · simp [outcome, hnil]
          · simp [outcome, hwaiting]
        simp only [readReply, hread]
        rw [hnone, List.append_nil, hclosed]
        exact ⟨rfl, 0, by simp⟩
      · have hne := Net.Script.ne_nil_of_read e.room_pos hread
        obtain ⟨opened, hout⟩ : ∃ opened, next.out = s.out ++ List.replicate opened [] := by
          rcases Net.Script.out_of_read hread with h | h
          · exact ⟨0, by simp [h]⟩
          · exact ⟨1, by simp [h]⟩
        rw [hb, ← List.append_assoc]
        rcases e.feed_cases hne next.inbound with
          ⟨frame, hfeed, hall⟩ | ⟨why, hfeed, hall⟩ | ⟨e', hfeed, hgot, hwaiting'⟩
        · simp only [readReply, hread, hfeed]
          exact ⟨hall.symm, opened, hout⟩
        · simp only [readReply, hread, hfeed]
          exact ⟨hall.symm, opened, hout⟩
        · obtain ⟨hrest, more, hmore⟩ := ih e' next hsteady' (.inr hwaiting') (by omega)
          simp only [readReply, hread, hfeed]
          rw [hrest, hgot]
          refine ⟨rfl, opened + more, ?_⟩
          rw [hmore, hout, List.append_assoc, List.replicate_append_replicate]

/-! ## A whole exchange -/

/-- An exchange on a new stream writes its request first. Where a part of it was not accepted,
nothing is read; else the outcome is that of all bytes that come in, and no more is written. -/
theorem run_cases (request : Bytes) {pieces : List Bytes} (hpieces : ∀ p ∈ pieces, p ≠ [])
    (writeLimit failAfter : Option Nat) :
    let script := Net.Script.ofPieces pieces writeLimit failAfter
    let ended := run request script
    (script.fits request = request.length ∧ ended.1 = outcome pieces.flatten ∧
      ∃ reads, ended.2.out = request :: List.replicate reads []) ∨
    (script.fits request ≠ request.length ∧ ended.2.reads = script.reads) := by
  intro script ended
  by_cases hfits : script.fits request = request.length
  · refine .inl ⟨hfits, ?_⟩
    have hrun : ended = readReply .start (script.afterWrite request) script.readsLeft := by
      simp only [ended, run, Net.Script.write_of_fits hfits]
      rfl
    have hout : (script.afterWrite request).out = [request] := by
      show [[] ++ request.take (script.fits request)] = [request]
      rw [hfits, List.take_length, List.nil_append]
    have hinbound : (script.afterWrite request).inbound = pieces.flatten := by
      simp [Net.Script.inbound, Net.Script.afterWrite, script, Net.Script.ofPieces,
        List.flatMap_map, List.flatMap_id']
    obtain ⟨hall, reads, hreads⟩ := readReply_spec script.readsLeft .start
      (script.afterWrite request) ⟨pieces, rfl, hpieces⟩ (.inl rfl) (Nat.le_refl _)
    rw [hrun]
    refine ⟨?_, reads, ?_⟩
    · rw [hall, hinbound]
      rfl
    · rw [hreads, hout]
      rfl
  · obtain ⟨text, htext⟩ := Net.Script.write_of_not_fits hfits
    refine .inr ⟨hfits, ?_⟩
    simp only [ended, run, htext]
    rfl

/-- **The reply is the first frame**, however the bytes of the backend are cut into reads. Nothing
is read before the whole request was accepted. If it is, it is written once and nothing after it,
and the bytes that come in settle what the exchange leads to: a complete frame at their front is the
reply, byte for byte; where what they begin with can become no frame, the fault is the one that the
reader finds; and else the backend closed the connection. What follows the frame or the fault makes
no difference. -/
theorem run_gathers_reply (request : Bytes) (pieces : List Bytes) (hpieces : ∀ p ∈ pieces, p ≠ [])
    (writeLimit failAfter : Option Nat) :
    let script := Net.Script.ofPieces pieces writeLimit failAfter
    let ended := run request script
    (ended.2.written ≠ request → ended.2.reads = script.reads) ∧
    (script.Accepts request.length →
      (∃ reads, ended.2.out = request :: List.replicate reads []) ∧
      (∀ frame, Begins frame pieces.flatten → ended.1 = .ok frame) ∧
      (∀ why, Spoilt why pieces.flatten →
        ended.1 = .error (.protocol ("backend reply: " ++ why.message))) ∧
      ((∀ frame, ¬ Begins frame pieces.flatten) → (∀ why, ¬ Spoilt why pieces.flatten) →
        ended.1 = .error (.backend "connection closed by backend"))) := by
  intro script ended
  rcases run_cases request hpieces writeLimit failAfter with
    ⟨_, hall, reads, hout⟩ | ⟨hfits, hreads⟩
  · have hwritten : ended.2.written = request := by
      simp only [Net.Script.written, ended, script, hout]
      simp
    refine ⟨fun hpart => absurd hwritten hpart, fun _ => ⟨⟨reads, hout⟩, ?_, ?_, ?_⟩⟩
    · intro frame hframe
      exact hall.trans (outcome_of_begins hframe)
    · intro why hwhy
      exact hall.trans (outcome_of_spoilt hwhy)
    · intro hframe hfault
      exact hall.trans (outcome_of_neither hframe hfault)
  · refine ⟨fun _ => hreads, fun haccepts => absurd ?_ hfits⟩
    apply Net.Script.fits_of_accepts
    simpa [script, Net.Script.ofPieces] using haccepts

/-- The reply to `PING` comes in two pieces, and an error message right behind it. -/
theorem run_gathers_reply_pong :
    let pieces := [Wire.Reply.pong.take 3, Wire.Reply.pong.drop 3 ++ Wire.Reply.requestError]
    (∀ p ∈ pieces, p ≠ []) ∧ (Net.Script.ofPieces pieces (some 1) none).Accepts 14 ∧
      Begins Wire.Reply.pong pieces.flatten ∧
      (run Wire.Message.ping.raw (Net.Script.ofPieces pieces (some 1) none)).1 =
        .ok Wire.Reply.pong := by
  intro pieces
  have hpieces : ∀ p ∈ pieces, p ≠ [] := by decide
  have haccepts : (Net.Script.ofPieces pieces (some 1) none).Accepts 14 :=
    ⟨by decide, by simp [Net.Script.ofPieces]⟩
  have hpong : Wire.Reply.pong = Wire.plus :: [80, 79, 78, 71] ++ Wire.crlf := by decide
  have hbegins : Begins Wire.Reply.pong pieces.flatten :=
    ⟨.status [80, 79, 78, 71], Wire.Reply.requestError, hpong ▸ .status (by decide), by decide⟩
  exact ⟨hpieces, haccepts, hbegins,
    ((run_gathers_reply Wire.Message.ping.raw pieces hpieces (some 1) none).2 haccepts).2.1
      Wire.Reply.pong hbegins⟩

end ShardProxy.Backend.Exchange
