import ShardProxy.Proofs.Backend.Link
import ShardProxy.Proofs.Command.Merging
import ShardProxy.Proofs.Proxy.Reachable
import ShardProxy.Sim.World

/-!
# One request, one frame

Whatever command a client sends, the reply is one frame: a fixed one, one that a backend sent, one
that the replies to several keys are merged to, or text. Text is laid out for people, with the names
of groups and the mapped keys in it as they are; and a carriage return in one of these breaks the
frame.

* `Proxy.frame_showMapping_iff`, `Proxy.frame_poolInfo_iff` — what breaks the replies that are text;
* `Proxy.Answers` — the replies to a request, for all that backends may send;
* `Sim.World.answers_of_begun`, `Sim.World.answers_of_replies` — these are the replies that clients
  get;
* `Proxy.replies_framed` — every other reply is a frame.
-/

namespace ShardProxy

open Wire (Message Frame cr crlf plus)
open Text (Unbroken utf8)

/-! ## Text -/

/-- Status text is a frame if it has no carriage return but that of its line end. -/
theorem frame_text_iff {s : String} (hplus : s.toList.head? = some '+') :
    Frame (utf8 (s ++ "\r\n")) ↔ Unbroken s := by
  obtain ⟨text, htext⟩ := List.head?_eq_some_iff.mp hplus
  have hbytes : utf8 (s ++ "\r\n") = plus :: text.flatMap String.utf8EncodeChar ++ crlf := by
    unfold utf8
    rw [String.toList_append, List.flatMap_append, htext]
    rfl
  have hnocr : Unbroken s ↔ cr ∉ text.flatMap String.utf8EncodeChar := by
    rw [← Text.not_mem_utf8]
    unfold utf8
    rw [htext]
    show cr ∉ plus :: _ ↔ _
    rw [List.mem_cons, not_or]
    exact and_iff_right (by decide)
  rw [hbytes, hnocr]
  exact Wire.frame_status_iff

/-- A name in letters of any case leads where the name itself does. -/
theorem Command.lookup_named {spec : Spec} {name : Bytes} (hname : name.map upper = utf8 spec.name)
    (hspec : table.find? (fun s => utf8 s.name == utf8 spec.name) = some spec) :
    lookup name = some spec := by
  unfold lookup
  rw [hname]
  exact hspec

namespace Proxy

theorem frame_showCommands : Frame showCommands := by
  have hnames : ∀ spec ∈ Command.table, Unbroken spec.name := by decide
  have hjoin : ∀ specs : List Command.Spec, specs ⊆ Command.table →
      Unbroken (String.join (specs.map fun s => s.name ++ " ")) := by
    intro specs hspecs
    rw [Text.unbroken_join, List.forall_mem_map]
    intro spec hspec
    exact (Text.unbroken_append _ _).mpr ⟨hnames spec (hspecs hspec), by decide⟩
  have hend : "\n\r\n" = "\n" ++ "\r\n" := by decide
  unfold showCommands
  dsimp only
  rw [hend, ← String.append_assoc, frame_text_iff (by simp)]
  simp only [Text.unbroken_append]
  exact ⟨⟨⟨⟨by decide, hjoin _ (List.filter_subset_self _)⟩, by decide⟩,
    hjoin _ (List.filter_subset_self _)⟩, by decide⟩

/-! ## Slots and keys -/

variable {groups : List Routing.Shard} {known : Bytes → Prop} {t : Routing.Table}

theorem unbroken_line (cells : List (Nat × String)) :
    Unbroken (line cells) ↔ ∀ cell ∈ cells, Unbroken cell.2 := by
  unfold line
  rw [Text.unbroken_append, Text.unbroken_row]
  exact and_iff_left (by decide)

/-- The owners of slots are groups. -/
theorem unbroken_slotOwners (hnames : ∀ g ∈ t.shards, Unbroken g.name) :
    ∀ owner ∈ t.slotOwners, Unbroken (owner.getD "-") := by
  intro owner howner
  unfold Routing.Table.slotOwners at howner
  obtain ⟨slot, _, rfl⟩ := List.mem_map.mp howner
  cases hname : slot.owner.bind t.groupName? with
  | none => exact (by decide : Unbroken "-")
  | some name =>
      obtain ⟨g, _, hg⟩ := Option.bind_eq_some_iff.mp hname
      obtain ⟨shard, hshard, rfl⟩ := Option.map_eq_some_iff.mp hg
      exact hnames shard (List.mem_of_getElem? hshard)

/-- The reply to SHOWMAPPING has every group and every mapped key in it, as they are. -/
theorem frame_showMapping_iff (h : t.Grounded groups known) :
    Frame (showMapping t) ↔
      (∀ g ∈ groups, Unbroken g.name) ∧ ∀ e ∈ t.overrides.entries, cr ∉ e.1 := by
  have hend : "\n\r\n" = "\n" ++ "\r\n" := by decide
  unfold showMapping
  dsimp only
  rw [hend, ← String.append_assoc, frame_text_iff (by simp)]
  simp only [Text.unbroken_append, unbroken_line, Text.unbroken_join, Text.unbroken_row,
    List.forall_mem_map, List.forall_mem_cons, List.not_mem_nil, false_imp_iff, implies_true,
    and_true]
  constructor
  · rintro ⟨⟨_, hrows⟩, _⟩
    -- the row of a group has its name, and every key that is mapped to it
    refine ⟨fun g hg => ?_, fun e he => ?_⟩
    · rw [← h.shards] at hg
      obtain ⟨i, hi, rfl⟩ := List.getElem_of_mem hg
      have hrow := hrows (t.shards[i], i)
        (List.mem_zipIdx_iff_getElem?.mpr (List.getElem?_eq_getElem hi))
      exact hrow.1.1.1.2
    · obtain ⟨hlt, _⟩ := h.entries e he
      rw [← h.shards] at hlt
      have hrow := hrows (t.shards[e.2], e.2)
        (List.mem_zipIdx_iff_getElem?.mpr (List.getElem?_eq_getElem hlt))
      have hkey := hrow.1.2 e (List.mem_filter.mpr ⟨he, beq_self_eq_true e.2⟩)
      exact (Text.unbroken_decodeLossy e.1).mp hkey.1
  · rintro ⟨hnames, hkeys⟩
    rw [← h.shards] at hnames
    have hslots : ∀ s ∈ t.slotOwners.zipIdx,
        Unbroken (toString s.2) ∧ Unbroken (s.1.getD "-") := fun s hs =>
      ⟨Text.unbroken_repr s.2, unbroken_slotOwners hnames _ (List.fst_mem_of_mem_zipIdx hs)⟩
    refine ⟨⟨⟨⟨⟨by decide, hslots⟩, by decide⟩, by decide⟩, fun s hs => ?_⟩, by decide⟩
    have hname := hnames _ (List.fst_mem_of_mem_zipIdx hs)
    refine ⟨⟨⟨⟨Text.unbroken_repr s.2, hname⟩, by decide⟩, fun e he => ⟨?_, by decide⟩⟩, by decide⟩
    exact (Text.unbroken_decodeLossy e.1).mpr (hkeys e (List.mem_filter.mp he).1)

/-! ## Pools -/

variable {c : Config} {sent : List Message} {p : Proxy} {m : Message} {authenticated : Bool}

/-- The reply to POOLINFO has every group in it, with each of its servants. -/
theorem frame_poolInfo_iff (h : Founded c sent p) :
    Frame p.poolInfo ↔ ∀ g ∈ c.groups, Unbroken g.name := by
  unfold poolInfo
  dsimp only
  rw [frame_text_iff (by simp)]
  simp only [Text.unbroken_append, Text.unbroken_join, List.forall_mem_map]
  have hshards := h.table.shards
  constructor
  · rintro ⟨_, hrows⟩ g hg
    obtain ⟨i, hi, rfl⟩ := List.getElem_of_mem hg
    -- a group has a servant, whose row begins with its name
    obtain ⟨ids, hids, id, hid, hlt⟩ := h.staffed i hi
    obtain ⟨m, hm, rfl⟩ := Option.map_eq_some_iff.mp (List.getElem?_map .. ▸ hids)
    have hshard : p.table.shards[i]? = some (c.groups[i]).shard := by
      rw [hshards, List.getElem?_map, List.getElem?_eq_getElem hi]
      rfl
    have hzip : ((c.groups[i]).shard, m) ∈ p.table.shards.zip p.members :=
      List.mem_of_getElem? (List.getElem?_zip_eq_some.mpr ⟨hshard, hm⟩)
    have hrow := hrows _ hzip id hid
    rw [Array.getElem?_eq_getElem hlt] at hrow
    exact (unbroken_line _).mp hrow _ List.mem_cons_self
  · intro hnames
    refine ⟨⟨by decide, (unbroken_line _).mpr (by decide)⟩, fun q hq id _ => ?_⟩
    obtain ⟨shard, m⟩ := q
    have hshard := (List.of_mem_zip hq).1
    rw [hshards] at hshard
    obtain ⟨g, hg, rfl⟩ := List.mem_map.mp hshard
    split
    · exact (by decide : Unbroken "")
    · rename_i v hv
      have haddress := h.addressed v (Array.mem_of_getElem? hv)
      rw [unbroken_line]
      simp only [List.forall_mem_cons, List.not_mem_nil, false_imp_iff, implies_true, and_true]
      have hnumber := Text.unbroken_repr
      exact ⟨hnames g hg, haddress, hnumber _, hnumber _, hnumber _⟩

/-! ## Replies -/

/-- What an exchange takes for a reply is a frame. -/
theorem frame_of_feed {e : Backend.Exchange} {bytes reply : Bytes}
    (h : e.feed bytes = .reply reply) : Frame reply := by
  obtain ⟨v, _, hv, _⟩ := Backend.Exchange.derives_of_reply h
  exact .of_derives hv

/-- What may come of a forwarded request: what a backend sends is a frame. -/
inductive Call.Yields : Call → Bytes → Prop where
  | refused : Yields .refused Wire.Reply.requestError
  | failed {servant : ServantId} {request : Bytes} (why : Failure) :
      Yields (.send servant request) (replyOf (.error why))
  | answered {servant : ServantId} {request reply : Bytes} :
      Frame reply → Yields (.send servant request) (replyOf (.ok reply))

/-- The reply to a request. -/
inductive Answers (p : Proxy) (m : Message) (authenticated : Bool) : Bytes → Prop where
  | answered {reply : Bytes} : (p.begin m authenticated).1 = .answered reply →
      Answers p m authenticated reply
  | forwarded {merge : Merge} {calls : List Call} {replies : List Bytes} :
      (p.begin m authenticated).1 = .forwarded merge calls →
      List.Forall₂ Call.Yields calls replies → Answers p m authenticated (merge.reply replies)

/-- The command of the request is known, the client may use it, and it is of this kind. -/
def Serves (p : Proxy) (kind : Command.Kind) (m : Message) (authenticated : Bool) : Prop :=
  ∃ spec, (m.token? 0).bind Command.lookup = some spec ∧ spec.kind = kind ∧
    (p.requiresAuth && !authenticated && spec.kind != .auth) = false

theorem frame_requestError : Frame Wire.Reply.requestError := Wire.Reply.frame_of_mem (by decide)

theorem Call.Yields.frame {call : Call} {reply : Bytes} (h : call.Yields reply) : Frame reply := by
  cases h with
  | refused => exact frame_requestError
  | failed => exact frame_requestError
  | answered hreply => exact hreply

theorem Merge.frame_reply {merge : Merge} {calls : List Call} {replies : List Bytes}
    (hcount : calls.length < 2 ^ 63) (h : List.Forall₂ Call.Yields calls replies) :
    Frame (merge.reply replies) := by
  have hall : ∀ reply ∈ replies, Frame reply := by
    intro reply hreply
    obtain ⟨call, _, hyields⟩ := exists_of_forall₂ h hreply
    exact hyields.frame
  cases merge with
  | relay =>
      cases replies with
      | nil => exact frame_requestError
      | cons reply replies => exact hall reply List.mem_cons_self
  | scattered kind =>
      have hinOrder := Command.Aggregation.replies_after_inOrder kind replies
      show Frame ((Command.Aggregation.start kind replies.length).gather _).merge
      rw [(Command.Aggregation.counted_start kind replies.length).gather_eq_after]
      refine Command.Aggregation.frame_merge ?_ fun reply hreply => ?_
      · rw [hinOrder, List.length_map, ← h.length_eq]
        exact hcount
      · rw [hinOrder] at hreply
        obtain ⟨r, hr, hsome⟩ := List.mem_map.mp hreply
        cases hsome
        exact hall _ hr

/-- What is answered at once is a frame; what is forwarded is not more than can be counted. -/
def Begun.Framed : Begun → Prop
  | .answered reply => Frame reply
  | .forwarded _ calls => calls.length < 2 ^ 63

theorem Answers.frame {reply : Bytes} (h : p.Answers m authenticated reply)
    (hframed : (p.begin m authenticated).1.Framed) : Frame reply := by
  cases h with
  | answered hbegun =>
      rw [hbegun] at hframed
      exact hframed
  | forwarded hbegun hyields =>
      rw [hbegun] at hframed
      exact Merge.frame_reply hframed hyields

theorem Answers.eq_of_answered {reply reply' : Bytes} (h : p.Answers m authenticated reply)
    (hbegun : (p.begin m authenticated).1 = .answered reply') : reply = reply' := by
  cases h with
  | answered hbegun' =>
      rw [hbegun] at hbegun'
      cases hbegun'
      rfl
  | forwarded hbegun' _ =>
      rw [hbegun] at hbegun'
      cases hbegun'

/-- There is always some reply: every call may fail. -/
theorem exists_answers (p : Proxy) (m : Message) (authenticated : Bool) :
    ∃ reply, p.Answers m authenticated reply := by
  cases hbegun : (p.begin m authenticated).1 with
  | answered reply => exact ⟨reply, .answered hbegun⟩
  | forwarded merge calls =>
      have hyields :
          List.Forall₂ Call.Yields calls (calls.map fun _ => Wire.Reply.requestError) := by
        rw [List.forall₂_map_right_iff, List.forall₂_same]
        intro call _
        cases call with
        | refused => exact .refused
        | send servant request => exact .failed .closedByBackend
      exact ⟨_, .forwarded hbegun hyields⟩

/-! ## Commands -/

theorem framed_forwardKey (spec : Command.Spec) : (p.forwardKey spec m).1.Framed := by
  unfold forwardKey
  split
  · exact Wire.Reply.frame_of_mem (by decide)
  · exact (by decide : 1 < 2 ^ 63)

theorem length_forwardAll (mutating : Bool) (subs : List Command.SubRequest) :
    (p.forwardAll mutating subs).1.length = subs.length := by
  induction subs generalizing p with
  | nil => rfl
  | cons sub rest ih => exact congrArg (· + 1) ih

/-- A request for several keys is forwarded, one call a key. -/
theorem scatter_many (spec : Command.Spec) {kind : Command.Multi} (hkeys : 2 ≤ kind.keyCount m) :
    let all := p.forwardAll spec.mutating (Command.split kind m)
    p.scatter kind spec m = (.forwarded (.scattered kind) all.1, all.2) := by
  unfold scatter
  split
  · omega
  · omega
  · rfl

theorem framed_scatter (hm : m.tokenCount ≤ 1024) (kind : Command.Multi) (spec : Command.Spec) :
    (p.scatter kind spec m).1.Framed := by
  unfold scatter
  split
  · exact Wire.Reply.frame_of_mem (by decide)
  · exact framed_forwardKey spec
  · show (p.forwardAll spec.mutating (Command.split kind m)).1.length < 2 ^ 63
    rw [length_forwardAll, Command.split, List.length_map, List.length_range]
    have hle : kind.keyCount m ≤ m.tokenCount - 1 := Nat.div_le_self _ _
    omega

theorem auth_mem (password : Option Bytes) :
    (auth password m authenticated).1 ∈ Wire.Reply.all := by
  unfold auth
  split
  · simp [Wire.Reply.all]
  split
  · simp [Wire.Reply.all]
  split
  · simp [Wire.Reply.all]
  · simp [Wire.Reply.all]

/-- Of the twelve kinds of commands, two can break their reply. -/
theorem framed_serve {spec : Command.Spec} (hm : m.tokenCount ≤ 1024)
    (hmapping : spec.kind = .showMapping → Frame (showMapping p.table))
    (hpool : spec.kind = .poolInfo → Frame p.poolInfo) :
    (p.serve spec m authenticated).1.Framed := by
  unfold serve
  dsimp only
  split
  · exact framed_forwardKey spec
  · exact framed_scatter hm .get spec
  · exact framed_scatter hm .set spec
  · exact framed_scatter hm .del spec
  · exact Wire.Reply.frame_of_mem (by decide)
  · exact Wire.Reply.frame_of_mem (auth_mem p.password)
  · exact frame_showCommands
  · rename_i hkind
    exact hmapping hkind
  · rename_i hkind
    exact hpool hkind
  · exact Wire.Reply.frame_of_mem (leads_hashMapping p.table m).reply_mem
  · exact Wire.Reply.frame_of_mem (leads_addKeyMapping p.table m).reply_mem
  · exact Wire.Reply.frame_of_mem (leads_delKeyMapping p.table m).reply_mem

theorem begin_of_serves {kind : Command.Kind} (h : p.Serves kind m authenticated) :
    ∃ spec, spec.kind = kind ∧ p.begin m authenticated = p.serve spec m authenticated := by
  obtain ⟨spec, hspec, hkind, hgate⟩ := h
  refine ⟨spec, hkind, ?_⟩
  unfold «begin»
  rw [hspec]
  dsimp only
  rw [hgate]
  rfl

theorem begin_showMapping (h : p.Serves .showMapping m authenticated) :
    (p.begin m authenticated).1 = .answered (showMapping p.table) := by
  obtain ⟨spec, hkind, hbegin⟩ := begin_of_serves h
  rw [hbegin, serve, hkind]

theorem begin_poolInfo (h : p.Serves .poolInfo m authenticated) :
    (p.begin m authenticated).1 = .answered p.poolInfo := by
  obtain ⟨spec, hkind, hbegin⟩ := begin_of_serves h
  rw [hbegin, serve, hkind]

theorem framed_begin (hm : m.tokenCount ≤ 1024)
    (hmapping : p.Serves .showMapping m authenticated → Frame (showMapping p.table))
    (hpool : p.Serves .poolInfo m authenticated → Frame p.poolInfo) :
    (p.begin m authenticated).1.Framed := by
  unfold «begin»
  split
  · exact Wire.Reply.frame_of_mem (by decide)
  · rename_i spec hspec
    split
    · exact Wire.Reply.frame_of_mem (by decide)
    · rename_i hgate
      have hopen := Bool.eq_false_iff.mpr hgate
      exact framed_serve hm (fun hkind => hmapping ⟨spec, hspec, hkind, hopen⟩)
        fun hkind => hpool ⟨spec, hspec, hkind, hopen⟩

/-- What was read has no more tokens than an array may hold. -/
theorem tokenCount_le {b rest : Bytes} (hread : Message.read b = .done m rest) :
    m.tokenCount ≤ 1024 := by
  obtain ⟨hm, _⟩ := Wire.Message.read_done_iff.mp hread
  have hsendable := Wire.sendable_of_derives hm
  obtain ⟨raw, value⟩ := m
  cases hsendable with
  | status | error | integer | bulk | nullArray => exact Nat.zero_le _
  | @array items hcount _ =>
      show (items.map Wire.Value.bulk).length ≤ 1024
      rw [List.length_map]
      exact hcount

end Proxy

/-! ## In the world -/

namespace Sim.World

variable {w later : World} {m : Message} {authenticated : Bool}

/-- The replies that a session goes on with are what came of its calls. -/
theorem yields_of_replies {calls : List Proxy.Call} {replies : List Bytes}
    (hframes : ∀ id reply, later.answer? id = some (.ok reply) → Frame reply)
    (hreplies : later.replies? (w.send calls).1 = some replies) :
    List.Forall₂ Proxy.Call.Yields calls replies := by
  induction calls generalizing w replies with
  | nil =>
      cases hreplies
      exact .nil
  | cons call calls ih =>
      unfold replies? at hreplies ih
      cases call with
      | refused =>
          rw [send, List.mapM_cons] at hreplies
          obtain ⟨reply, hreply, hreplies⟩ := Option.bind_eq_some_iff.mp hreplies
          obtain ⟨rest, hrest, hreplies⟩ := Option.bind_eq_some_iff.mp hreplies
          cases hreply
          cases hreplies
          exact .cons .refused (ih hrest)
      | send servant request =>
          rw [send, List.mapM_cons] at hreplies
          obtain ⟨reply, hreply, hreplies⟩ := Option.bind_eq_some_iff.mp hreplies
          obtain ⟨rest, hrest, hreplies⟩ := Option.bind_eq_some_iff.mp hreplies
          obtain ⟨result, hresult, rfl⟩ := Option.map_eq_some_iff.mp hreply
          cases hreplies
          cases result with
          | error why => exact .cons (.failed why) (ih hrest)
          | ok reply => exact .cons (.answered (hframes _ reply hresult)) (ih hrest)

/-- What the world answers a client at once is a reply of its proxy. -/
theorem answers_of_begun {reply : Bytes} (hbegun : (w.begin m authenticated).1 = .inl reply) :
    w.proxy.Answers m authenticated reply := by
  unfold «begin» at hbegun
  dsimp only at hbegun
  split at hbegun
  · rename_i reply' hanswered
    cases hbegun
    exact .answered hanswered
  · cases hbegun

/-- So is what it answers when the calls are over. -/
theorem answers_of_replies {merge : Proxy.Merge} {ids : List (Option Backend.RequestId)}
    {replies : List Bytes}
    (hframes : ∀ id reply, later.answer? id = some (.ok reply) → Frame reply)
    (hbegun : (w.begin m authenticated).1 = .inr (merge, ids))
    (hreplies : later.replies? ids = some replies) :
    w.proxy.Answers m authenticated (merge.reply replies) := by
  unfold «begin» at hbegun
  dsimp only at hbegun
  split at hbegun
  · cases hbegun
  · rename_i merge' calls hcalls
    cases hbegun
    exact .forwarded hcalls (yields_of_replies hframes hreplies)

end Sim.World

namespace Proxy

variable {c : Config} {sent : List Message} {p : Proxy} {m : Message} {authenticated : Bool}

/-- **One request, one frame.** Whatever commands clients have sent to the proxy of any
configuration, and whatever happened to its timers and servants, a request has a reply. The reply is
one frame if what backends sent for it is, except that SHOWMAPPING and POOLINFO break off where the
name of a group, or a mapped key that is shown, has a carriage return. So every reply is a frame as
long as the configuration has no such name or key and no client has asked for a mapping of one. And
where the reply is a frame, whatever comes after it, no other frame begins where it does.

What the world around the proxy sends to a client is a reply in this sense, and what the exchange
with a backend takes for the reply is a frame. -/
theorem replies_framed {b rest : Bytes} (h : Reachable c sent p)
    (hread : Message.read b = .done m rest) :
    (∃ reply, p.Answers m authenticated reply) ∧
    (∀ reply, p.Answers m authenticated reply →
      (Frame reply ↔
        (p.Serves .showMapping m authenticated →
          (∀ g ∈ c.groups, Unbroken g.name) ∧ ∀ e ∈ p.table.overrides.entries, cr ∉ e.1) ∧
        (p.Serves .poolInfo m authenticated → ∀ g ∈ c.groups, Unbroken g.name)) ∧
      ((∀ g ∈ c.groups, Unbroken g.name) →
        (∀ key, c.maps key ∨ (∃ m ∈ sent, Asks m key) → cr ∉ key) → Frame reply) ∧
      (Frame reply → ∀ q s t, Frame q → reply ++ s = q ++ t → q = reply ∧ s = t)) ∧
    (∀ (w : Sim.World) reply, w.proxy = p → (w.begin m authenticated).1 = .inl reply →
      p.Answers m authenticated reply) ∧
    (∀ (w later : Sim.World) merge ids replies, w.proxy = p →
      (∀ id bytes, later.answer? id = some (.ok bytes) → Frame bytes) →
      (w.begin m authenticated).1 = .inr (merge, ids) → later.replies? ids = some replies →
        p.Answers m authenticated (merge.reply replies)) ∧
    (∀ (e : Backend.Exchange) bytes reply, e.feed bytes = .reply reply → Frame reply) := by
  have hfounded := h.founded
  have hmapping := frame_showMapping_iff hfounded.table
  have hpool := frame_poolInfo_iff hfounded
  rw [List.forall_mem_map] at hmapping
  refine ⟨exists_answers p m authenticated, fun reply hreply => ?_, ?_, ?_,
    fun _ _ _ => frame_of_feed⟩
  · have hframe : (p.Serves .showMapping m authenticated → Frame (showMapping p.table)) →
        (p.Serves .poolInfo m authenticated → Frame p.poolInfo) → Frame reply :=
      fun hkeys hnames => hreply.frame (framed_begin (tokenCount_le hread) hkeys hnames)
    refine ⟨⟨fun hframed => ⟨fun hserves => ?_, fun hserves => ?_⟩, fun ⟨hkeys, hnames⟩ => ?_⟩,
      fun hnames hknown => ?_, fun hframed q s t hq heq => ?_⟩
    · rw [hreply.eq_of_answered (begin_showMapping hserves)] at hframed
      exact hmapping.mp hframed
    · rw [hreply.eq_of_answered (begin_poolInfo hserves)] at hframed
      exact hpool.mp hframed
    · exact hframe (fun hserves => hmapping.mpr (hkeys hserves))
        fun hserves => hpool.mpr (hnames hserves)
    · -- every key of the table was asked for
      have hkeys : ∀ e ∈ p.table.overrides.entries, cr ∉ e.1 := fun e he =>
        hknown e.1 (hfounded.table.entries e he).2
      exact hframe (fun _ => hmapping.mpr ⟨hnames, hkeys⟩) fun _ => hpool.mpr hnames
    · obtain rfl := hframed.unique hq heq
      exact ⟨rfl, List.append_cancel_left heq⟩
  · rintro w reply rfl hbegun
    exact Sim.World.answers_of_begun hbegun
  · rintro w later merge ids replies rfl hframes hbegun hreplies
    exact Sim.World.answers_of_replies hframes hbegun hreplies

end Proxy

/-! ## A mapped key in the reply -/

/-- One slot, one group, one host. -/
def Config.sole : Config :=
  { Config.defaults with
    routing := { slotCount := 1 }
    groups := [{ name := "g0", hashMin := some 0, hashMax := some 0,
                 hosts := [{ name := "m", addr := "127.0.0.1:10001" }] }] }

namespace Proxy

def sole : Proxy where
  table := ⟨.direct, .bytes, [⟨"g0", 1⟩], #[⟨some 0, 0⟩], .empty⟩
  members := [{ policy := .masterOnly, masters := [0] }]
  servants := #[.ofProfile { name := "m", address := "127.0.0.1:10001", master := true }]

/-- A request of these words. -/
def asked (words : List String) : Message :=
  ⟨Wire.command (words.map utf8), .array (some (words.map fun w => .bulk (some (utf8 w))))⟩

/-- The proxy after a client has mapped a key. -/
def sole.mapped (key : String) : Proxy :=
  (sole.begin (asked ["ADDKEYMAPPING", "g0", key]) true).2.2

theorem sole.reachable (key : String) :
    Reachable .sole [asked ["ADDKEYMAPPING", "g0", key]] (sole.mapped key) :=
  .request _ true (.initial rfl)

theorem sole.answers (key : String) :
    (sole.mapped key).Answers (asked ["SHOWMAPPING"]) true (showMapping (sole.mapped key).table) :=
  .answered rfl

/-- A line feed alone breaks no frame. -/
theorem replies_framed_mapped :
    Reachable .sole [asked ["ADDKEYMAPPING", "g0", "a\nb"]] (sole.mapped "a\nb") ∧
      (sole.mapped "a\nb").Answers (asked ["SHOWMAPPING"]) true
        (showMapping (sole.mapped "a\nb").table) ∧
      Frame (showMapping (sole.mapped "a\nb").table) := by
  have hread : Message.read (asked ["SHOWMAPPING"]).raw = .done (asked ["SHOWMAPPING"]) [] := by
    cbv
  have hreachable := sole.reachable "a\nb"
  have hanswers := sole.answers "a\nb"
  refine ⟨hreachable, hanswers, ?_⟩
  exact ((replies_framed hreachable hread).2.1 _ hanswers).1.mpr
    ⟨fun _ => ⟨by decide, by decide⟩, fun _ => by decide⟩

/-- A client has mapped a key with a line end in it, and the reply to another, who asks for the
mapping, breaks off there. -/
theorem showMapping_breaks_off :
    Reachable .sole [asked ["ADDKEYMAPPING", "g0", "a\r\nb"]] (sole.mapped "a\r\nb") ∧
      (sole.mapped "a\r\nb").Answers (asked ["SHOWMAPPING"]) true
        (showMapping (sole.mapped "a\r\nb").table) ∧
      ¬ Frame (showMapping (sole.mapped "a\r\nb").table) := by
  have hreachable := sole.reachable "a\r\nb"
  refine ⟨hreachable, sole.answers "a\r\nb", fun hframe => ?_⟩
  have hkeys := ((frame_showMapping_iff hreachable.founded.table).mp hframe).2
  exact absurd hkeys (by decide)

end Proxy

end ShardProxy
