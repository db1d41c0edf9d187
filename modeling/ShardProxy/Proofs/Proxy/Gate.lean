import ShardProxy.Proofs.Proxy.Conversation
import ShardProxy.Proofs.Proxy.Framing
import ShardProxy.Sim.Control

/-!
# The gate of authentication

A proxy with a password answers a client that has not given it from the request alone: nothing
behind the gate is read, and nothing changes.

* `Proxy.gate` — the reply to a client that is not authenticated;
* `Proxy.presents` — the requests that open the gate;
* `Proxy.begin_gated`, `Proxy.flag_begin` — what one request does at the gate;
* `Session.rounds_unmoved` — a session whose requests all leave the world as it is;
* `Proxy.Realm.session`, `Sim.World.session_locked` — sessions before a proxy, in any surroundings
  and in the world in memory;
* `Proxy.Realm.session_gated` — whole sessions before two proxies with the same password.
-/

namespace ShardProxy

open Text (utf8)
open Wire (Message)

/-! ## One request -/

namespace Command

/-- No other name leads to AUTH. -/
theorem upper_of_lookup {name : Bytes} {spec : Spec} (h : lookup name = some spec)
    (hkind : spec.kind = .auth) : name.map upper = utf8 "AUTH" := by
  have hauth : ∀ s ∈ table, s.kind = .auth → s.name = "AUTH" := by decide
  have hname := List.find?_some h
  rw [beq_iff_eq, hauth spec (List.mem_of_find?_eq_some h) hkind] at hname
  exact hname.symm

end Command

namespace Proxy

variable {p : Proxy} {m : Message} {password : Bytes}

/-- The request is AUTH, in letters of any case, with this password and nothing else. -/
def presents (password : Bytes) (m : Message) : Bool :=
  (m.token? 0).any (·.map Command.upper == utf8 "AUTH") && m.tokenCount == 2 &&
    m.token? 1 == some password

/-- The reply to a client that is not authenticated and does not give the password. -/
def gate (m : Message) : Bytes :=
  match (m.token? 0).bind Command.lookup with
  | none => Wire.Reply.protoNotSupport
  | some spec =>
    if spec.kind != .auth then Wire.Reply.noAuth
    else if m.tokenCount != 2 then Wire.Reply.wrongArity
    else Wire.Reply.authInvalid

theorem named_of_auth {spec : Command.Spec} (h : (m.token? 0).bind Command.lookup = some spec)
    (hkind : spec.kind = .auth) :
    (m.token? 0).any (·.map Command.upper == utf8 "AUTH") = true := by
  obtain ⟨name, hname, hspec⟩ := Option.bind_eq_some_iff.mp h
  rw [hname, Option.any_some, beq_iff_eq]
  exact Command.upper_of_lookup hspec hkind

/-- What gives the password is looked up as AUTH. -/
theorem lookup_of_presents (h : presents password m = true) :
    (m.token? 0).bind Command.lookup = some ⟨"AUTH", .auth, false⟩ := by
  unfold presents at h
  rw [Bool.and_eq_true, Bool.and_eq_true] at h
  obtain ⟨name, hname, hupper⟩ := (Option.any_eq_true _ _).mp h.1.1
  rw [hname]
  exact Command.lookup_named (beq_iff_eq.mp hupper) (by decide)

theorem requiresAuth_of_password (hpassword : p.password = some password) :
    p.requiresAuth = true := by
  unfold requiresAuth
  rw [hpassword]
  rfl

/-- **At the gate** a request that does not give the password is answered from what it says alone,
and nothing changes. -/
theorem begin_gated (hpassword : p.password = some password) (hm : presents password m = false) :
    p.begin m false = (.answered (gate m), false, p) := by
  have hguarded := requiresAuth_of_password hpassword
  unfold «begin» gate
  cases hspec : (m.token? 0).bind Command.lookup with
  | none => rfl
  | some spec =>
      dsimp only
      by_cases hkind : spec.kind = .auth
      · have hnamed := named_of_auth hspec hkind
        unfold presents at hm
        rw [hnamed, Bool.true_and] at hm
        rw [hguarded, hkind]
        unfold serve auth
        rw [hkind, hpassword]
        dsimp only
        by_cases hcount : m.tokenCount = 2
        · have hwrong : (m.token? 1 == some password) = false := by simpa [hcount] using hm
          simp [hcount, hwrong]
        · simp [hcount]
      · have hbne : (spec.kind != .auth) = true := bne_iff_ne.mpr hkind
        rw [hguarded, hbne]
        rfl

/-- The request gives the password of the proxy. -/
def unlockedBy (p : Proxy) (m : Message) : Bool := p.password.any (presents · m)

theorem unlockedBy_of_not_auth
    (h : ((m.token? 0).bind Command.lookup).all (·.kind != .auth) = true) :
    p.unlockedBy m = false := by
  by_contra hopen
  rw [Bool.not_eq_false] at hopen
  obtain ⟨_, _, hpresents⟩ := (Option.any_eq_true _ _).mp hopen
  rw [lookup_of_presents hpresents] at h
  cases h

theorem flag_serve {spec : Command.Spec} (hspec : (m.token? 0).bind Command.lookup = some spec)
    (authenticated : Bool) :
    (p.serve spec m authenticated).2.1 = (authenticated || p.unlockedBy m) := by
  by_cases hkind : spec.kind = .auth
  · have hnamed := named_of_auth hspec hkind
    unfold serve auth unlockedBy presents
    rw [hkind, hnamed]
    cases hpassword : p.password with
    | none => cases hcount : (m.tokenCount != 2) <;> simp
    | some expected =>
        by_cases hcount : m.tokenCount = 2
        · by_cases hright : m.token? 1 = some expected
          · simp [hcount, hright]
          · simp [hcount, hright]
        · simp [hcount]
  · have hshut : p.unlockedBy m = false :=
      unlockedBy_of_not_auth (by rw [hspec]; exact bne_iff_ne.mpr hkind)
    rw [hshut, Bool.or_false]
    unfold serve
    dsimp only
    split
    all_goals first
      | rfl
      | exact absurd ‹spec.kind = .auth› hkind

/-- **The flag** of a client is set by a request that gives the password, and by nothing else. -/
theorem flag_begin (p : Proxy) (m : Message) (authenticated : Bool) :
    (p.begin m authenticated).2.1 = (authenticated || p.unlockedBy m) := by
  unfold «begin»
  split
  · rename_i hspec
    have hshut : p.unlockedBy m = false := unlockedBy_of_not_auth (by rw [hspec]; rfl)
    rw [hshut, Bool.or_false]
  · rename_i spec hspec
    split
    · rename_i hblocked
      rw [Bool.and_eq_true] at hblocked
      have hshut : p.unlockedBy m = false :=
        unlockedBy_of_not_auth (by rw [hspec]; exact hblocked.2)
      rw [hshut, Bool.or_false]
    · exact flag_serve hspec authenticated

end Proxy

/-! ## Sessions that leave the world as it is -/

namespace Session

variable {σ : Type} {dispatch : σ → Message → Bool → σ × Bytes × Bool} {world : σ}
variable {reply : Message → Bytes} {s : Session}

/-- A way to serve requests that has a reply to each and no state. -/
def unmoved (reply : Message → Bytes) (_ : Unit) (m : Message) (authenticated : Bool) :
    Unit × Bytes × Bool :=
  ((), reply m, authenticated)

/-- A request is answered by its reply and leaves the world and the flag as they are. -/
def Unmoving (dispatch : σ → Message → Bool → σ × Bytes × Bool) (world : σ)
    (reply : Message → Bytes) (m : Message) : Prop :=
  dispatch world m false = (world, reply m, false)

/-- What is left in a session after draining, with all that may follow, holds no message that was
not there before. -/
theorem drainSteps_unmoved (fuel : Nat) (out : Bytes) (hflag : s.authenticated = false)
    (hquiet : ∀ m ∈ (Wire.messages s.incoming).1, Unmoving dispatch world reply m) :
    ∃ s' out' close, drainSteps dispatch world s out fuel = (world, s', out', close) ∧
      drainSteps (unmoved reply) () s out fuel = ((), s', out', close) ∧
      s'.authenticated = false ∧
      ∀ more, (Wire.messages (s'.incoming ++ more)).1 ⊆ (Wire.messages (s.incoming ++ more)).1 := by
  induction fuel generalizing s out with
  | zero => exact ⟨s, out, false, rfl, rfl, hflag, fun _ => List.Subset.refl _⟩
  | succ fuel ih =>
      by_cases h : ∃ m rest, Message.read s.incoming = .done m rest
      · obtain ⟨m, rest, hread⟩ := h
        have hall := Wire.messages_of_done hread
        have hlater (more : Bytes) : (Wire.messages (rest ++ more)).1 ⊆
            (Wire.messages (s.incoming ++ more)).1 := by
          rw [Wire.messages_of_done (Message.read_append hread more)]
          exact List.subset_cons_self _ _
        rw [hall] at hquiet
        obtain ⟨hm, hrest⟩ := List.forall_mem_cons.mp hquiet
        have hpast : (s.past m rest).authenticated = false := hflag
        by_cases hrequest : m.kind = .array ∧ 0 < m.tokenCount
        · have hnext : s.next = .request m (s.past m rest) := by
            rw [next_of_done hread, if_pos hrequest]
          obtain ⟨s', out', close, hsteps, halone, hflag', hmore⟩ :=
            ih (s := { s.past m rest with authenticated := false }) (out ++ reply m) rfl hrest
          refine ⟨s', out', close, ?_, ?_, hflag', fun more => ?_⟩
          · rw [drainSteps, hnext]
            dsimp only
            rw [hpast, hm]
            exact hsteps
          · rw [drainSteps, hnext]
            dsimp only
            rw [hpast]
            exact halone
          · exact List.Subset.trans (hmore more) (hlater more)
        · have hnext : s.next = .unsupported (s.past m rest) := by
            rw [next_of_done hread, if_neg hrequest]
          obtain ⟨s', out', close, hsteps, halone, hflag', hmore⟩ :=
            ih (out ++ Wire.Reply.protoNotSupport) hpast hrest
          refine ⟨s', out', close, ?_, ?_, hflag', fun more => ?_⟩
          · rw [drainSteps, hnext]
            exact hsteps
          · rw [drainSteps, hnext]
            exact halone
          · exact List.Subset.trans (hmore more) (hlater more)
      · have hnone : ∀ m rest, Message.read s.incoming ≠ .done m rest :=
          fun m rest hd => h ⟨m, rest, hd⟩
        unfold drainSteps
        rw [next_of_not_done hnone]
        cases Wire.isGarbage s.incoming with
        | false => exact ⟨s, out, false, rfl, rfl, hflag, fun _ => List.Subset.refl _⟩
        | true =>
            exact ⟨s, out ++ Wire.Reply.protoError, true, rfl, rfl, hflag,
              fun _ => List.Subset.refl _⟩

/-- **A session leaves the world as it is** if every request that comes in does, and what it writes
does not depend on the world. -/
theorem rounds_unmoved (fuel : Nat) {script : Net.Script} (hflag : s.authenticated = false)
    (hquiet : ∀ m ∈ (Wire.messages (s.incoming ++ script.delivered)).1,
      Unmoving dispatch world reply m) :
    rounds dispatch world s script fuel =
      (world, (rounds (unmoved reply) () s script fuel).2) := by
  induction fuel generalizing s script with
  | zero => rfl
  | succ fuel ih =>
      have hfirst : ∀ m ∈ (Wire.messages s.incoming).1, Unmoving dispatch world reply m := by
        rw [Wire.messages_append] at hquiet
        exact fun m hm => hquiet m (List.mem_append_left _ hm)
      obtain ⟨s', out, close, hdrain, halone, hflag', hmore⟩ :=
        drainSteps_unmoved (s.incoming.length + 1) [] hflag hfirst
      rw [rounds_succ dispatch script fuel hdrain, rounds_succ (unmoved reply) script fuel halone]
      have hdelivered : (script.write out).2.delivered = script.delivered := rfl
      rcases hwrite : script.write out with ⟨_ | text, after⟩
      · dsimp only
        cases close with
        | true => rfl
        | false =>
            simp only [Bool.false_eq_true, if_false]
            rcases hread : after.read s'.room with ⟨b | _ | text, next⟩
            · -- the messages of the next round were among those that come in
              rw [hwrite] at hdelivered
              refine ih (s := s'.feed b) hflag' fun m hm => hquiet m ?_
              rw [← hdelivered, Net.Script.delivered_of_read hread]
              refine hmore _ ?_
              rw [← List.append_assoc]
              exact hm
            · rfl
            · rfl
      · rfl

end Session

/-! ## Proxies with what surrounds them -/

namespace Proxy

/-- A proxy with what surrounds it, and the calls that were handed to servants. -/
structure Realm (ε : Type) where
  proxy : Proxy
  around : ε
  handed : List Call := []

/-- How the surroundings of a proxy carry calls out: they do with the proxy what they like, and
come up with replies. -/
abbrev Carrier (ε : Type) := ε → Proxy → List Call → ε × Proxy × List Bytes

namespace Realm

variable {ε : Type}

/-- Serves one request. -/
def serve (carry : Carrier ε) (r : Realm ε) (m : Message) (authenticated : Bool) :
    Realm ε × Bytes × Bool :=
  match r.proxy.begin m authenticated with
  | (.answered reply, authenticated, proxy) => ({ r with proxy }, reply, authenticated)
  | (.forwarded merge calls, authenticated, proxy) =>
    let (around, proxy, replies) := carry r.around proxy calls
    (⟨proxy, around, r.handed ++ calls⟩, merge.reply replies, authenticated)

/-- The session of a client of the realm. -/
def session (carry : Carrier ε) (r : Realm ε) (script : Net.Script) :
    Realm ε × Option String × Net.Script :=
  (Session.start (!r.proxy.requiresAuth)).run (serve carry) r script

/-- Over many requests, to proxies in any states. -/
theorem flag_foldl (carry : Carrier ε) (requests : List (Realm ε × Message))
    (authenticated : Bool) :
    requests.foldl (fun flag q => (q.1.serve carry q.2 flag).2.2) authenticated =
      (authenticated || requests.any fun q => q.1.proxy.unlockedBy q.2) := by
  induction requests generalizing authenticated with
  | nil => exact (Bool.or_false _).symm
  | cons q requests ih =>
      have hflag : (q.1.serve carry q.2 authenticated).2.2 =
          (q.1.proxy.begin q.2 authenticated).2.1 := by
        unfold serve
        split
        all_goals
          rename_i hbegin
          rw [hbegin]
      rw [List.foldl_cons, hflag, ih, flag_begin, List.any_cons, Bool.or_assoc]

theorem session_unmoved (carry : Carrier ε) {r : Realm ε} {password : Bytes}
    (hpassword : r.proxy.password = some password) {script : Net.Script}
    (hstream : ∀ m ∈ (Wire.messages script.delivered).1, presents password m = false) :
    r.session carry script =
      (r, ((Session.start false).run (Session.unmoved gate) () script).2) := by
  unfold session
  rw [requiresAuth_of_password hpassword]
  refine Session.rounds_unmoved _ rfl fun m hm => ?_
  unfold Session.Unmoving serve
  rw [begin_gated hpassword (hstream m hm)]

end Realm

end Proxy

/-! ## In the world in memory -/

namespace Sim.World

variable {w : World} {password : Bytes}

/-- Nothing is due yet. -/
def AtRest (w : World) : Prop := ∀ e ∈ w.agenda.head?, w.clock < e.1

theorem run_of_atRest (h : w.AtRest) (fuel : Nat) :
    w.run (fun _ => false) (some w.clock) fuel = w := by
  cases fuel with
  | zero => rfl
  | succ fuel =>
      unfold AtRest at h
      cases hagenda : w.agenda with
      | nil =>
          rw [run, hagenda]
          rfl
      | cons e rest =>
          rw [hagenda] at h
          have hlater : (some w.clock).any (· < e.1) = true := decide_eq_true (h e rfl)
          rw [run, hagenda]
          dsimp only
          rw [if_neg Bool.false_ne_true, if_pos hlater]

theorem withProxy_self (w : World) : w.withProxy w.proxy = w := by
  have hnone : (List.range w.proxy.table.shards.length).filter (fun g =>
      w.proxy.monitor.isEjected g && !w.proxy.monitor.isEjected g) = [] := by
    refine List.filter_eq_nil_iff.mpr fun g _ => ?_
    rw [Bool.and_not_self]
    exact Bool.false_ne_true
  unfold withProxy
  dsimp only
  rw [hnone]
  rfl

/-- At the gate nothing is begun. -/
theorem request_gated (hpassword : w.proxy.password = some password) (hrest : w.AtRest)
    {m : Message} (hm : Proxy.presents password m = false) :
    w.request m false = (Proxy.gate m, false, w) := by
  have hbegin : w.begin m false = (.inl (Proxy.gate m), false, w) := by
    unfold «begin»
    rw [Proxy.begin_gated hpassword hm]
    dsimp only
    rw [withProxy_self]
  unfold request
  rw [hbegin]
  dsimp only [awaitReply]
  rw [settle, run_of_atRest hrest]

/-- A client that never gives the password leaves a world at rest as it is, and sees none of it. -/
theorem session_locked (hpassword : w.proxy.password = some password) (hrest : w.AtRest)
    {script : Net.Script}
    (hstream : ∀ m ∈ (Wire.messages script.delivered).1, Proxy.presents password m = false) :
    let ended := (Session.start false).run (Session.unmoved Proxy.gate) () script
    w.session script = (ended.2.1, ended.2.2, w) := by
  intro ended
  let dispatch (w : World) (m : Message) (authenticated : Bool) : World × Bytes × Bool :=
    ((w.request m authenticated).2.2, (w.request m authenticated).1,
      (w.request m authenticated).2.1)
  have hquiet : ∀ m ∈ (Wire.messages script.delivered).1,
      Session.Unmoving dispatch w Proxy.gate m := by
    intro m hm
    unfold Session.Unmoving
    dsimp only [dispatch]
    rw [request_gated hpassword hrest (hstream m hm)]
  have hrun : (Session.start false).run dispatch w script = (w, ended.2) :=
    Session.rounds_unmoved _ rfl hquiet
  have hsession : w.session script =
      (((Session.start (!w.proxy.requiresAuth)).run dispatch w script).2.1,
        ((Session.start (!w.proxy.requiresAuth)).run dispatch w script).2.2,
        ((Session.start (!w.proxy.requiresAuth)).run dispatch w script).1) := rfl
  rw [hsession, Proxy.requiresAuth_of_password hpassword]
  exact congrArg (fun r => (r.2.1, r.2.2, r.1)) hrun

end Sim.World

/-! ## Before two proxies -/

namespace Proxy

namespace Realm

variable {ε ε' : Type}

/-- **The gate hides and protects everything.** Whatever two proxies with the same password hold,
and whatever surrounds them, a client that never gives the password sees the same on both; neither
proxy changes, and no servant is handed a byte. So it is in the world in memory. And over any
requests, to proxies in any states, the flag of a client is set exactly from the first request on
that gives the password. -/
theorem session_gated (carry : Carrier ε) (carry' : Carrier ε') {r : Realm ε} {r' : Realm ε'}
    {password : Bytes} (hpassword : r.proxy.password = some password)
    (hpassword' : r'.proxy.password = some password) {script : Net.Script}
    (hstream : ∀ m ∈ (Wire.messages script.delivered).1, presents password m = false) :
    (r.session carry script).2 = (r'.session carry' script).2 ∧
      (r.session carry script).1 = r ∧ (r'.session carry' script).1 = r' ∧
      (∀ w : Sim.World, w.proxy.password = some password → w.AtRest →
        w.session script =
          ((r.session carry script).2.1, (r.session carry script).2.2, w)) ∧
      ∀ (requests : List (Realm ε × Message)) (authenticated : Bool),
        requests.foldl (fun flag q => (q.1.serve carry q.2 flag).2.2) authenticated = true ↔
          authenticated = true ∨ ∃ q ∈ requests, q.1.proxy.unlockedBy q.2 = true := by
  rw [session_unmoved carry hpassword hstream, session_unmoved carry' hpassword' hstream]
  refine ⟨rfl, rfl, rfl, fun w hw hrest => ?_, fun requests authenticated => ?_⟩
  · exact Sim.World.session_locked hw hrest hstream
  · rw [flag_foldl, Bool.or_eq_true, List.any_eq_true]

end Realm

/-- A proxy of one group with the password `pw`. -/
def locked (slots : Routing.Slots) : Proxy where
  password := some (utf8 "pw")
  table := ⟨.direct, .bytes, [⟨"a", 1⟩], slots, .empty⟩
  members := [{ policy := .masterOnly, masters := [0] }]
  servants := #[]

/-- AUTH with another password. -/
def guess : Message :=
  ⟨Wire.command [utf8 "auth", utf8 "PW"],
    .array (some [.bulk (some (utf8 "auth")), .bulk (some (utf8 "PW"))])⟩

/-- Before a proxy that owns a slot and before one that does not: a wrong password, and then
garbage. -/
theorem session_gated_guess :
    let script := Net.Script.ofPieces [guess.raw ++ [63]] none none
    let carry : Carrier Unit := fun _ p _ => ((), p, [])
    let r : Realm Unit := ⟨locked #[⟨some 0, 0⟩], (), []⟩
    let r' : Realm Unit := ⟨locked #[], (), []⟩
    (∀ m ∈ (Wire.messages script.delivered).1, presents (utf8 "pw") m = false) ∧
      (r.session carry script).2 = (r'.session carry script).2 ∧
      (r.session carry script).1 = r := by
  intro script carry r r'
  have hmessages : (Wire.messages script.delivered).1 = [guess] := by
    have hread : Message.read script.delivered = .done guess [63] := by cbv
    have hnone : ∀ m rest, Message.read [63] ≠ .done m rest := by
      intro m rest h
      cases h
    rw [Wire.messages_of_done hread, Wire.messages_of_not_done hnone]
  have hstream : ∀ m ∈ (Wire.messages script.delivered).1, presents (utf8 "pw") m = false := by
    rw [hmessages]
    decide
  have hpassword : r.proxy.password = some (utf8 "pw") := rfl
  have hpassword' : r'.proxy.password = some (utf8 "pw") := rfl
  obtain ⟨hsame, hkept, _⟩ := Realm.session_gated carry carry hpassword hpassword' hstream
  exact ⟨hstream, hsame, hkept⟩

end Proxy

end ShardProxy
