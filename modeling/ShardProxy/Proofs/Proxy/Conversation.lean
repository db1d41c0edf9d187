import ShardProxy.Proofs.Net.Stream
import ShardProxy.Proofs.Wire.Messages
import ShardProxy.Proxy.Session

/-!
# The conversation of a session

What a client is answered depends on the bytes that it sends and not on how they come in:

* `Wire.messages` — the messages of a byte string, in order;
* `Talk.hold` — the conversation over a byte string: each message answered once, in order, and bytes
  that can never become a message answered once at the end;
* `Session.drain_spec`, `Session.rounds_spec` — a session answers what has come in, and goes on;
* `Session.run_holds_conversation` — a whole session is the conversation over all bytes.
-/

namespace ShardProxy

open Wire (Message)

namespace Wire

/-! ## The messages of a byte string -/

theorem Message.length_rest_lt {b rest : Bytes} {m : Message} (h : Message.read b = .done m rest) :
    rest.length < b.length := by
  obtain ⟨hm, rfl⟩ := Message.read_done_iff.mp h
  have hlen := derives_length hm
  rw [List.length_append]
  omega

/-- The complete messages at the front, one after the other, and the bytes behind them. -/
def messages (b : Bytes) : List Message × Bytes :=
  match _h : Message.read b with
  | .done m rest => (m :: (messages rest).1, (messages rest).2)
  | .incomplete => ([], b)
  | .malformed _ => ([], b)
termination_by b.length
decreasing_by exact Message.length_rest_lt _h

/-- Bytes that can never become a message. -/
def isGarbage (b : Bytes) : Bool :=
  !b.isEmpty && match Message.read b with
    | .malformed _ => true
    | _ => false

theorem messages_of_done {b rest : Bytes} {m : Message} (h : Message.read b = .done m rest) :
    messages b = (m :: (messages rest).1, (messages rest).2) := by
  rw [messages]
  split
  · rename_i m' rest' h'
    rw [h, Scan.done.injEq] at h'
    obtain ⟨rfl, rfl⟩ := h'
    rfl
  · rename_i h'
    rw [h] at h'
    cases h'
  · rename_i h'
    rw [h] at h'
    cases h'

theorem messages_of_not_done {b : Bytes} (h : ∀ m rest, Message.read b ≠ .done m rest) :
    messages b = ([], b) := by
  rw [messages]
  split
  · rename_i m rest h'
    exact absurd h' (h m rest)
  · rfl
  · rfl

/-- The messages of more bytes: those there already, and what the rest becomes with them. -/
theorem messages_append (b s : Bytes) :
    messages (b ++ s) =
      ((messages b).1 ++ (messages ((messages b).2 ++ s)).1,
        (messages ((messages b).2 ++ s)).2) := by
  induction hlen : b.length using Nat.strong_induction_on generalizing b with
  | _ n ih =>
      by_cases h : ∃ m rest, Message.read b = .done m rest
      · obtain ⟨m, rest, hread⟩ := h
        have hrest := ih rest.length (hlen ▸ Message.length_rest_lt hread) rest rfl
        rw [messages_of_done (Message.read_append hread s), messages_of_done hread, hrest]
        rfl
      · have hnone : ∀ m rest, Message.read b ≠ .done m rest := fun m rest hd => h ⟨m, rest, hd⟩
        rw [messages_of_not_done hnone]
        rfl

/-- Garbage stays garbage, and holds no message. -/
theorem garbage_append {b : Bytes} (h : isGarbage b = true) (s : Bytes) :
    isGarbage (b ++ s) = true ∧ messages (b ++ s) = ([], b ++ s) := by
  simp only [isGarbage, Bool.and_eq_true, Bool.not_eq_true', List.isEmpty_eq_false_iff] at h
  obtain ⟨hne, hbad⟩ := h
  cases hread : Message.read b with
  | done m rest => simp [hread] at hbad
  | incomplete => simp [hread] at hbad
  | malformed why =>
      have hmore := Message.read_malformed hne hread s
      refine ⟨by simp [isGarbage, hne, hmore], messages_of_not_done fun m rest hd => ?_⟩
      rw [hmore] at hd
      cases hd

end Wire

/-! ## Conversations -/

/-- What has been said so far: the state of the proxy, the requests handed to it, each with whether
the client was authenticated, and the replies. -/
structure Talk (σ : Type) where
  world : σ
  authenticated : Bool
  calls : List (Message × Bool) := []
  output : Bytes := []

namespace Talk

variable {σ : Type} (dispatch : σ → Message → Bool → σ × Bytes × Bool)

/-- Answers one message: a request by the proxy, anything else by a fixed reply. -/
def answer (t : Talk σ) (m : Message) : Talk σ :=
  if m.kind = .array ∧ 0 < m.tokenCount then
    let (world, reply, authenticated) := dispatch t.world m t.authenticated
    { world, authenticated
      calls := t.calls ++ [(m, t.authenticated)]
      output := t.output ++ reply }
  else { t with output := t.output ++ Wire.Reply.protoNotSupport }

/-- Goes on over a byte string. -/
def hold (t : Talk σ) (b : Bytes) : Talk σ :=
  let t := (Wire.messages b).1.foldl (answer dispatch) t
  if Wire.isGarbage (Wire.messages b).2 then
    { t with output := t.output ++ Wire.Reply.protoError }
  else t

theorem answer_of_request {t : Talk σ} {m : Message} (h : m.kind = .array ∧ 0 < m.tokenCount) :
    answer dispatch t m =
      { world := (dispatch t.world m t.authenticated).1
        authenticated := (dispatch t.world m t.authenticated).2.2
        calls := t.calls ++ [(m, t.authenticated)]
        output := t.output ++ (dispatch t.world m t.authenticated).2.1 } := by
  unfold answer
  rw [if_pos h]

theorem answer_of_not_request {t : Talk σ} {m : Message}
    (h : ¬ (m.kind = .array ∧ 0 < m.tokenCount)) :
    answer dispatch t m = { t with output := t.output ++ Wire.Reply.protoNotSupport } := by
  unfold answer
  rw [if_neg h]

theorem hold_of_done {t : Talk σ} {b rest : Bytes} {m : Message}
    (h : Message.read b = .done m rest) :
    hold dispatch t b = hold dispatch (answer dispatch t m) rest := by
  unfold hold
  rw [Wire.messages_of_done h]
  rfl

/-- The same with something said before it. -/
def after (o : Bytes) (t : Talk σ) : Talk σ := { t with output := o ++ t.output }

theorem answer_after (o : Bytes) (t : Talk σ) (m : Message) :
    answer dispatch (t.after o) m = (answer dispatch t m).after o := by
  unfold answer after
  split <;> simp

theorem foldl_answer_after (o : Bytes) (t : Talk σ) (ms : List Message) :
    ms.foldl (answer dispatch) (t.after o) = (ms.foldl (answer dispatch) t).after o := by
  induction ms generalizing t with
  | nil => rfl
  | cons m ms ih => rw [List.foldl_cons, List.foldl_cons, answer_after, ih]

theorem hold_after (o : Bytes) (t : Talk σ) (b : Bytes) :
    hold dispatch (t.after o) b = (hold dispatch t b).after o := by
  simp only [hold, foldl_answer_after]
  split
  · simp [after]
  · rfl

/-- What was said stays said. -/
theorem output_prefix_hold (t : Talk σ) (b : Bytes) :
    t.output <+: (hold dispatch t b).output := by
  have h := hold_after dispatch t.output { t with output := [] } b
  have ht : Talk.after t.output { t with output := [] } = t := by simp [after]
  rw [ht] at h
  rw [h]
  exact List.prefix_append _ _

/-- Nothing is said after garbage. -/
theorem hold_append_of_garbage {t : Talk σ} {b : Bytes}
    (h : Wire.isGarbage (Wire.messages b).2 = true) (s : Bytes) :
    hold dispatch t (b ++ s) = hold dispatch t b := by
  obtain ⟨hgarbage, hnone⟩ := Wire.garbage_append h s
  simp only [hold, Wire.messages_append b s, hnone, List.append_nil, hgarbage, h]

/-- Otherwise the conversation goes on with the bytes that are left. -/
theorem hold_append {t : Talk σ} {b : Bytes} (h : Wire.isGarbage (Wire.messages b).2 = false)
    (s : Bytes) :
    hold dispatch t (b ++ s) = hold dispatch (hold dispatch t b) ((Wire.messages b).2 ++ s) := by
  have hb : hold dispatch t b = (Wire.messages b).1.foldl (answer dispatch) t := by
    simp [hold, h]
  rw [hb]
  simp only [hold, Wire.messages_append b s, List.foldl_append]

/-- A way to serve requests that also notes each request it is given. -/
def noting (world : σ × List (Message × Bool)) (m : Message) (authenticated : Bool) :
    (σ × List (Message × Bool)) × Bytes × Bool :=
  let (after, reply, authenticated') := dispatch world.1 m authenticated
  ((after, world.2 ++ [(m, authenticated)]), reply, authenticated')

/-- The same conversation with its calls noted in the state. -/
def noted (t : Talk σ) : Talk (σ × List (Message × Bool)) :=
  { world := (t.world, t.calls), authenticated := t.authenticated, calls := t.calls
    output := t.output }

theorem answer_noting (t : Talk σ) (m : Message) :
    answer (noting dispatch) t.noted m = (answer dispatch t m).noted := by
  unfold answer noting noted
  split <;> rfl

theorem hold_noting (t : Talk σ) (b : Bytes) :
    hold (noting dispatch) t.noted b = (hold dispatch t b).noted := by
  have hfold : ∀ (ms : List Message) (t : Talk σ),
      ms.foldl (answer (noting dispatch)) t.noted = (ms.foldl (answer dispatch) t).noted := by
    intro ms
    induction ms with
    | nil => intro t; rfl
    | cons m ms ih =>
        intro t
        rw [List.foldl_cons, List.foldl_cons, answer_noting, ih]
  unfold hold
  simp only [hfold]
  split <;> rfl

theorem output_hold_prefix_append (t : Talk σ) (b s : Bytes) :
    (hold dispatch t b).output <+: (hold dispatch t (b ++ s)).output := by
  cases h : Wire.isGarbage (Wire.messages b).2 with
  | true => rw [hold_append_of_garbage dispatch h]
  | false =>
      rw [hold_append dispatch h]
      exact output_prefix_hold dispatch _ _

end Talk

/-! ## Sessions -/

namespace Session

/-- What is left of a session after a message. -/
def past (s : Session) (m : Message) (rest : Bytes) : Session :=
  { s with incoming := rest, window := s.window.consume m.raw.length }

theorem next_of_done {s : Session} {m : Message} {rest : Bytes}
    (h : Message.read s.incoming = .done m rest) :
    s.next =
      if m.kind = .array ∧ 0 < m.tokenCount then .request m (s.past m rest)
      else .unsupported (s.past m rest) := by
  obtain ⟨hm, hraw⟩ := Message.read_done_iff.mp h
  have hne : s.incoming.isEmpty = false := by
    have hlen := Wire.derives_length hm
    cases hin : s.incoming with
    | nil =>
        rw [hin] at hraw
        rw [(List.append_eq_nil_iff.mp hraw.symm).1] at hlen
        simp at hlen
    | cons => rfl
  have hframe : Wire.frameLength s.incoming = .done m.raw.length rest := by
    rw [Wire.frameLength_eq, h]
    rfl
  have hagain : Message.read (s.incoming.take m.raw.length) = .done m [] :=
    Message.read_done_iff.mpr ⟨hm, by simp [hraw]⟩
  have hrest : s.incoming.drop m.raw.length = rest := by simp [hraw]
  simp only [next, hne, hframe, hagain, hrest]
  by_cases hkind : m.kind = .array
  · by_cases hcount : m.tokenCount = 0
    · simp [hkind, hcount, past]
    · simp [hkind, hcount, past, Nat.pos_of_ne_zero hcount]
  · simp [hkind, past]

theorem next_of_not_done {s : Session} (h : ∀ m rest, Message.read s.incoming ≠ .done m rest) :
    s.next = if Wire.isGarbage s.incoming then .malformed else .needMore := by
  cases hin : s.incoming with
  | nil => simp [next, hin, Wire.isGarbage]
  | cons c b =>
      rw [hin] at h
      cases hread : Message.read (c :: b) with
      | done m rest => exact absurd hread (h m rest)
      | incomplete =>
          simp [next, hin, Wire.isGarbage, Wire.frameLength_eq, hread, Wire.Scan.map,
            Wire.Scan.andThen]
      | malformed why =>
          simp [next, hin, Wire.isGarbage, Wire.frameLength_eq, hread, Wire.Scan.map,
            Wire.Scan.andThen]

variable {σ : Type} (dispatch : σ → Message → Bool → σ × Bytes × Bool)

/-- **Draining goes on with the conversation** over what has come in, and keeps what is no message
yet. -/
theorem drainSteps_spec (fuel : Nat) (t : Talk σ) (s : Session)
    (hfuel : s.incoming.length < fuel) (hauth : s.authenticated = t.authenticated) :
    ∃ s', s'.incoming = (Wire.messages s.incoming).2 ∧
      s'.authenticated = (t.hold dispatch s.incoming).authenticated ∧
      drainSteps dispatch t.world s t.output fuel =
        ((t.hold dispatch s.incoming).world, s', (t.hold dispatch s.incoming).output,
          Wire.isGarbage (Wire.messages s.incoming).2) := by
  induction fuel generalizing t s with
  | zero => omega
  | succ fuel ih =>
      by_cases h : ∃ m rest, Message.read s.incoming = .done m rest
      · obtain ⟨m, rest, hread⟩ := h
        have hshort : (s.past m rest).incoming.length < fuel := by
          have hlt := Wire.Message.length_rest_lt hread
          simp only [past]
          omega
        rw [Wire.messages_of_done hread, Talk.hold_of_done dispatch hread]
        by_cases hm : m.kind = .array ∧ 0 < m.tokenCount
        · let s₁ : Session :=
            { s.past m rest with authenticated := (t.answer dispatch m).authenticated }
          obtain ⟨s', hincoming, hauth', hsteps⟩ := ih (t.answer dispatch m) s₁ hshort rfl
          refine ⟨s', hincoming, hauth', Eq.trans ?_ hsteps⟩
          simp only [drainSteps, next_of_done hread, if_pos hm, Talk.answer_of_request dispatch hm,
            past, hauth, s₁]
        · obtain ⟨s', hincoming, hauth', hsteps⟩ :=
            ih (t.answer dispatch m) (s.past m rest) hshort
              (by rw [Talk.answer_of_not_request dispatch hm]; exact hauth)
          refine ⟨s', hincoming, hauth', Eq.trans ?_ hsteps⟩
          simp only [drainSteps, next_of_done hread, if_neg hm,
            Talk.answer_of_not_request dispatch hm]
      · have hnone : ∀ m rest, Message.read s.incoming ≠ .done m rest :=
          fun m rest hd => h ⟨m, rest, hd⟩
        refine ⟨s, by rw [Wire.messages_of_not_done hnone], ?_, ?_⟩
        · simp only [Talk.hold, Wire.messages_of_not_done hnone, List.foldl_nil]
          split <;> exact hauth
        · simp only [drainSteps, next_of_not_done hnone, Talk.hold,
            Wire.messages_of_not_done hnone, List.foldl_nil]
          cases Wire.isGarbage s.incoming <;> rfl

theorem room_pos (s : Session) : 0 < s.room := Net.Window.room_pos _ _

/-- One round: drain, write, read. -/
theorem rounds_succ {world world' : σ} {s s' : Session} {out : Bytes} {close : Bool}
    (script : Net.Script) (fuel : Nat)
    (h : drainSteps dispatch world s [] (s.incoming.length + 1) = (world', s', out, close)) :
    rounds dispatch world s script (fuel + 1) =
      match script.write out with
      | (some text, script) => (world', some text, script)
      | (none, script) =>
        if close then (world', none, script)
        else match script.read s'.room with
          | (.ended, script) => (world', none, script)
          | (.failed text, script) => (world', some text, script)
          | (.bytes b, script) => rounds dispatch world' (s'.feed b) script fuel := by
  rw [rounds, drain]
  generalize drainSteps dispatch world s [] (s.incoming.length + 1) = drained at h
  subst h
  rfl

/-- **A session is its conversation.** Wherever a session stands, what it will have written is the
conversation so far, gone on with over the bytes that are there and those to come: all of it if
the stream accepts as much, and else a part at its front. -/
theorem rounds_spec (fuel : Nat) (t : Talk σ) (s : Session) (script : Net.Script)
    (hsteady : script.Steady) (hauth : s.authenticated = t.authenticated)
    (hwritten : script.written = t.output) (haccepted : script.accepted = script.written.length)
    (hfuel : script.readsLeft ≤ fuel) :
    let whole := t.hold dispatch (s.incoming ++ script.inbound)
    let ended := rounds dispatch t.world s script fuel
    ended.2.2.written <+: whole.output ∧
      (script.Accepts whole.output.length →
        ended.1 = whole.world ∧ ended.2.1 = none ∧ ended.2.2.written = whole.output) := by
  induction fuel generalizing t s script with
  | zero =>
      have hpos := script.readsLeft_pos
      omega
  | succ fuel ih =>
      -- one round: what has come in is answered, and `drain` starts from no output
      let said := Talk.hold dispatch { t with output := [] } s.incoming
      have hsaid : t.hold dispatch s.incoming = said.after t.output := by
        rw [← Talk.hold_after]
        simp [Talk.after]
      obtain ⟨s', hincoming, hauth', hdrain⟩ := drainSteps_spec dispatch (s.incoming.length + 1)
        { t with output := [] } s (Nat.lt_succ_self _) hauth
      have hworld : (t.hold dispatch s.incoming).world = said.world := by
        rw [hsaid]
        rfl
      have hround := rounds_succ dispatch script fuel hdrain
      have houtput : script.written ++ said.output = (t.hold dispatch s.incoming).output := by
        rw [hsaid, hwritten]
        rfl
      have hfront := Talk.output_hold_prefix_append dispatch t s.incoming script.inbound
      simp only [hround]
      rcases Net.Script.write_cases haccepted said.output with
        ⟨after, hwrite, hafter, haccepted', hreads, hlimit, hfail⟩ |
        ⟨text, after, hwrite, hpart, hnot⟩
      · rw [houtput] at hafter
        simp only [said] at hwrite
        simp only [hwrite]
        cases hgarbage : Wire.isGarbage (Wire.messages s.incoming).2 with
        | true =>
            rw [Talk.hold_append_of_garbage dispatch hgarbage]
            simp only [if_true]
            exact ⟨hafter ▸ List.prefix_rfl, fun _ => ⟨hworld.symm, trivial, hafter⟩⟩
        | false =>
            have hsteady' : after.Steady := by
              unfold Net.Script.Steady
              rw [hreads]
              exact hsteady
            have hinbound : after.inbound = script.inbound := by
              unfold Net.Script.inbound
              rw [hreads]
            rcases Net.Script.read_cases hsteady' s'.room_pos with
              ⟨hnone, hread⟩ |
              ⟨b, next, hread, hb, hsteadyNext, hwrittenNext, hacceptedNext, hlimitNext, hfailNext,
                hleft⟩
            · -- nothing more comes in
              rw [← hinbound, hnone, List.append_nil]
              simp only [hread, Bool.false_eq_true, if_false]
              exact ⟨hafter ▸ List.prefix_rfl, fun _ => ⟨hworld.symm, trivial, hafter⟩⟩
            · -- the next round goes on from what was said in this one
              simp only [hread, Bool.false_eq_true, if_false]
              have hgoesOn : t.hold dispatch (s.incoming ++ script.inbound) =
                  (t.hold dispatch s.incoming).hold dispatch
                    ((s'.feed b).incoming ++ next.inbound) := by
                rw [Talk.hold_append dispatch hgarbage, ← hinbound, hb]
                simp [feed, hincoming]
              have hleftNext : next.readsLeft ≤ fuel := by
                have hsame : after.readsLeft = script.readsLeft := by
                  unfold Net.Script.readsLeft
                  rw [hreads]
                omega
              have hrest := ih (t.hold dispatch s.incoming) (s'.feed b) next hsteadyNext
                (by rw [hsaid]; exact hauth') (by rw [hwrittenNext, hafter])
                (by rw [hacceptedNext, hwrittenNext, haccepted']) hleftNext
              rw [hworld] at hrest
              rw [hgoesOn]
              refine ⟨hrest.1, fun haccepts => hrest.2 ?_⟩
              simpa only [Net.Script.Accepts, hlimitNext, hfailNext, hlimit, hfail] using haccepts
      · -- the write fails: a part of this round's replies was accepted
        rw [houtput] at hpart hnot
        simp only [said] at hwrite
        simp only [hwrite]
        refine ⟨hpart.trans hfront, fun haccepts => ?_⟩
        exact absurd (haccepts.mono hfront.length_le) hnot

theorem run_spec (world : σ) (authenticated : Bool) {pieces : List Bytes}
    (hpieces : ∀ p ∈ pieces, p ≠ []) (writeLimit failAfter : Option Nat) :
    let whole := Talk.hold dispatch { world, authenticated } pieces.flatten
    let script := Net.Script.ofPieces pieces writeLimit failAfter
    let ended := run dispatch world (start authenticated) script
    ended.2.2.written <+: whole.output ∧
      (script.Accepts whole.output.length →
        ended.1 = whole.world ∧ ended.2.1 = none ∧ ended.2.2.written = whole.output) := by
  have hinbound : (Net.Script.ofPieces pieces writeLimit failAfter).inbound = pieces.flatten := by
    simp [Net.Script.inbound, Net.Script.ofPieces, List.flatMap_map, List.flatMap_id']
  have hspec := rounds_spec dispatch _ { world, authenticated } (start authenticated)
    (Net.Script.ofPieces pieces writeLimit failAfter) ⟨pieces, rfl, hpieces⟩ rfl rfl rfl
    (Nat.le_refl _)
  rw [hinbound] at hspec
  exact hspec

/-- **A session is the conversation over all that its client sends**, however that is cut into
reads. If the stream accepts all replies, they are those of the conversation, and so are the
requests handed to the proxy, in order, and the state it ends in; if a write fails, what was
accepted is the front of the replies. -/
theorem run_holds_conversation (world : σ) (authenticated : Bool) (pieces : List Bytes)
    (hpieces : ∀ p ∈ pieces, p ≠ []) (writeLimit failAfter : Option Nat) :
    let whole := Talk.hold dispatch { world, authenticated } pieces.flatten
    let script := Net.Script.ofPieces pieces writeLimit failAfter
    let ended := run dispatch world (start authenticated) script
    let noted := run (Talk.noting dispatch) (world, []) (start authenticated) script
    ended.2.2.written <+: whole.output ∧
      (script.Accepts whole.output.length →
        ended.1 = whole.world ∧ ended.2.1 = none ∧ ended.2.2.written = whole.output ∧
        noted.1 = (whole.world, whole.calls)) := by
  intro whole script ended noted
  obtain ⟨hstart, hall⟩ := run_spec dispatch world authenticated hpieces writeLimit failAfter
  refine ⟨hstart, fun haccepts => ?_⟩
  obtain ⟨hworld, hend, hwritten⟩ := hall haccepts
  refine ⟨hworld, hend, hwritten, ?_⟩
  have hnoted := (run_spec (Talk.noting dispatch) (world, []) authenticated hpieces writeLimit
    failAfter).2
  have hsame : Talk.hold (Talk.noting dispatch) { world := (world, []), authenticated }
      pieces.flatten = whole.noted :=
    Talk.hold_noting dispatch { world, authenticated } pieces.flatten
  rw [hsame] at hnoted
  exact (hnoted haccepts).1

/-- Two requests and garbage, cut within the first request and within the second. -/
theorem run_holds_conversation_pings :
    let count : Nat → Message → Bool → Nat × Bytes × Bool :=
      fun n _ authenticated => (n + 1, Wire.Reply.pong, authenticated)
    let pieces := [Message.ping.raw.take 9, Message.ping.raw.drop 9 ++ Message.ping.raw.take 3,
      Message.ping.raw.drop 3 ++ [63]]
    let ended := run count 0 (start true) (Net.Script.ofPieces pieces none none)
    (∀ p ∈ pieces, p ≠ []) ∧ ended.1 = 2 ∧ ended.2.1 = none ∧
      ended.2.2.written = Wire.Reply.pong ++ Wire.Reply.pong ++ Wire.Reply.protoError := by
  intro count pieces ended
  have hpieces : ∀ p ∈ pieces, p ≠ [] := by decide
  obtain ⟨hworld, hend, hwritten, _⟩ :=
    (run_holds_conversation count 0 true pieces hpieces none none).2
      ⟨by decide, by simp [Net.Script.ofPieces]⟩
  have hmessages : Wire.messages pieces.flatten = ([Message.ping, Message.ping], [63]) := by
    have hfirst : Message.read pieces.flatten = .done .ping (Message.ping.raw ++ [63]) := rfl
    have hsecond : Message.read (Message.ping.raw ++ [63]) = .done .ping [63] := rfl
    have hnone : ∀ m rest, Message.read [63] ≠ .done m rest := by
      intro m rest h
      cases h
    rw [Wire.messages_of_done hfirst, Wire.messages_of_done hsecond,
      Wire.messages_of_not_done hnone]
  have hwhole : Talk.hold count { world := 0, authenticated := true } pieces.flatten =
      { world := 2, authenticated := true, calls := [(.ping, true), (.ping, true)]
        output := Wire.Reply.pong ++ Wire.Reply.pong ++ Wire.Reply.protoError } := by
    unfold Talk.hold
    rw [hmessages]
    rfl
  rw [hwhole] at hworld hwritten
  exact ⟨hpieces, hworld, hend, hwritten⟩

end Session

end ShardProxy
