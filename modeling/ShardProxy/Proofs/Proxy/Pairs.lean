import ShardProxy.Proofs.Command.Splitting
import ShardProxy.Proofs.Proxy.Framing

/-!
# Pairs to set

A request to set several pairs is split, and what is sent for each pair is that pair and nothing
else. A request for one pair is passed on as it is, to the last argument. So an argument that is no
part of a pair goes to no servant where there are several pairs, but goes along with a single one.

* `Command.pairs` — the complete pairs among some arguments;
* `Proxy.begin_mset` — what becomes of the request, up to its number of keys;
* `Proxy.forwardAll_takes` — what is passed to a servant is what was to be forwarded;
* `Proxy.passedOn_split`, `Proxy.passedOn_whole` — many pairs, and a single one;
* `Proxy.pairs_forwarded` — the pairs and what is forwarded.
-/

namespace ShardProxy

open Text (utf8)
open Wire (Message)

namespace Command

/-- The complete pairs among some arguments. -/
def pairs : List Bytes → List (Bytes × Bytes)
  | [] => []
  | [_] => []
  | key :: value :: rest => (key, value) :: pairs rest

theorem length_pairs (args : List Bytes) : (pairs args).length = args.length / 2 := by
  induction args using pairs.induct with
  | case1 => rfl
  | case2 => simp [pairs]
  | case3 key value rest ih =>
      rw [pairs, List.length_cons, ih]
      simp only [List.length_cons]
      omega

/-- The pieces that a request for pairs is cut into are the pairs. -/
theorem map_piece (args : List Bytes) :
    (List.range (args.length / 2)).map (Multi.set.piece args) =
      (pairs args).map fun e => [e.1, e.2] := by
  induction args using pairs.induct with
  | case1 => rfl
  | case2 => simp [pairs]
  | case3 key value rest ih =>
      have hlength : (key :: value :: rest).length / 2 = rest.length / 2 + 1 := by
        simp only [List.length_cons]
        omega
      -- the pairs after the first are those of the rest
      have hnext (i : Nat) :
          Multi.set.piece (key :: value :: rest) (i + 1) = Multi.set.piece rest i := by
        unfold Multi.piece
        rw [Nat.succ_mul, show Multi.set.stride = 2 from rfl]
        rfl
      rw [hlength, List.range_succ_eq_map, List.map_cons, List.map_map, pairs, List.map_cons, ← ih]
      congr 1
      exact List.map_congr_left fun i _ => hnext i

end Command

namespace Proxy

open Command (pairs SubRequest Multi)

variable {p : Proxy} {m : Message} {authenticated : Bool}

/-- A client that may not use the command is told so; else the request is served by its number of
keys. -/
theorem begin_mset (hname : (m.token? 0).map (·.map Command.upper) = some (utf8 "MSET")) :
    p.begin m authenticated =
      if p.requiresAuth && !authenticated then (.answered Wire.Reply.noAuth, authenticated, p)
      else ((p.scatter .set ⟨"MSET", .multiSet, true⟩ m).1, authenticated,
        (p.scatter .set ⟨"MSET", .multiSet, true⟩ m).2) := by
  obtain ⟨name, htoken, hupper⟩ := Option.map_eq_some_iff.mp hname
  unfold «begin»
  have hlookup : Command.lookup name = some ⟨"MSET", .multiSet, true⟩ :=
    Command.lookup_named hupper (by decide)
  rw [htoken, Option.bind_some, hlookup]
  dsimp only
  rw [show (Command.Kind.multiSet != .auth) = true from rfl, Bool.and_true]
  rfl

/-- A call takes a request to some servant, unless it is refused. -/
def Takes (sub : SubRequest) (call : Call) : Prop :=
  call = .refused ∨ ∃ servant, call = .send servant sub.request

theorem forward_takes (p : Proxy) (sub : SubRequest) (mutating : Bool) :
    Takes sub (p.forward sub.key sub.request mutating).1 := by
  unfold forward
  split
  · exact .inl rfl
  · split
    · exact .inl rfl
    · exact .inr ⟨_, rfl⟩

/-- What is passed to servants is what was to be forwarded, in order. -/
theorem forwardAll_takes (p : Proxy) (mutating : Bool) (subs : List SubRequest) :
    List.Forall₂ Takes subs (p.forwardAll mutating subs).1 := by
  induction subs generalizing p with
  | nil => exact .nil
  | cons sub rest ih => exact .cons (p.forward_takes sub mutating) (ih _)

/-- What a request that is passed on is read as: it is routed by its first argument. -/
structure Delivers (sub : SubRequest) (part : Message) : Prop where
  read : Message.read sub.request = .done part []
  key : part.token? 1 = some sub.key

theorem Delivers.of_carries {kind : Multi} {sub : SubRequest} {part : Message}
    (h : Command.Carries kind sub part) : Delivers sub part := by
  obtain ⟨values, htokens, _⟩ := h.tokens
  refine ⟨h.read, ?_⟩
  rw [Wire.token?_of_sendable (Wire.sendable_of_derives (Message.read_done_iff.mp h.read).1),
    htokens]
  rfl

/-- A request with one key is passed on as it is. -/
theorem scatter_one (spec : Command.Spec) {kind : Multi} {key : Bytes} (hkeys : kind.keyCount m = 1)
    (hkey : m.token? 1 = some key) :
    let sole := p.forwardAll spec.mutating [⟨0, key, m.raw⟩]
    p.scatter kind spec m = (.forwarded .relay sole.1, sole.2) := by
  unfold scatter forwardKey
  rw [hkeys, hkey]
  rfl

/-- What a request for pairs is passed on as, by whichever proxy. -/
def PassedOn (m : Message) (passed : List SubRequest) : Prop :=
  ∃ merge, ∀ (p : Proxy) (authenticated : Bool),
    ((p.requiresAuth && !authenticated) = true →
      p.begin m authenticated = (.answered Wire.Reply.noAuth, authenticated, p)) ∧
    ((p.requiresAuth && !authenticated) = false →
      p.begin m authenticated =
        (.forwarded merge (p.forwardAll true passed).1, authenticated,
          (p.forwardAll true passed).2) ∧
      List.Forall₂ Takes passed (p.forwardAll true passed).1)

theorem passedOn_of_scatter (hname : (m.token? 0).map (·.map Command.upper) = some (utf8 "MSET"))
    {merge : Merge} {passed : List SubRequest}
    (hscatter : ∀ p : Proxy, p.scatter .set ⟨"MSET", .multiSet, true⟩ m =
      (.forwarded merge (p.forwardAll true passed).1, (p.forwardAll true passed).2)) :
    PassedOn m passed := by
  refine ⟨merge, fun p authenticated => ⟨fun hlocked => ?_, fun hopen => ?_⟩⟩
  · rw [begin_mset hname, if_pos hlocked]
  · rw [begin_mset hname, if_neg (by rw [hopen]; exact Bool.false_ne_true), hscatter]
    exact ⟨rfl, p.forwardAll_takes true passed⟩

/-- Many pairs are sent one by one. -/
theorem passedOn_split (hm : m.value.Sendable)
    (hname : (m.token? 0).map (·.map Command.upper) = some (utf8 "MSET"))
    (hmany : 2 ≤ (pairs m.arguments).length) :
    ∃ passed parts, PassedOn m passed ∧ List.Forall₂ Delivers passed parts ∧
      parts.map (·.arguments) = (pairs m.arguments).map fun e => [e.1, e.2] := by
  rw [Command.length_pairs] at hmany
  have hkeys : Multi.set.keyCount m = m.arguments.length / 2 := Command.keyCount_of_sendable hm
  refine ⟨Command.split .set m, (List.range (Multi.set.keyCount m)).map (Command.part .set m),
    passedOn_of_scatter hname fun p => scatter_many _ (hkeys ▸ hmany),
    (Command.forall₂_split hm .set).imp fun _ _ => Delivers.of_carries, ?_⟩
  rw [List.map_map, ← Command.map_piece, hkeys]
  exact List.map_congr_left fun i _ => Command.arguments_part .set m i

/-- A single pair is sent with all that comes after it. -/
theorem passedOn_whole {rest : List Bytes} {key value : Bytes}
    (hderives : Wire.Derives m.raw m.value)
    (hname : (m.token? 0).map (·.map Command.upper) = some (utf8 "MSET"))
    (hargs : m.arguments = key :: value :: rest) (hone : rest.length ≤ 1) :
    ∃ passed, PassedOn m passed ∧ List.Forall₂ Delivers passed [m] := by
  have hm : m.value.Sendable := Wire.sendable_of_derives hderives
  have hkeys : Multi.set.keyCount m = 1 := by
    rw [Command.keyCount_of_sendable hm, hargs, show Multi.set.stride = 2 from rfl]
    simp only [List.length_cons]
    omega
  have hkey : m.token? 1 = some key := by
    have hfirst : m.arguments[0]? = m.tokens[1]? := List.getElem?_drop
    rw [Wire.token?_of_sendable hm, ← hfirst, hargs]
    rfl
  have hwhole : Message.read m.raw = .done m [] :=
    Message.read_done_iff.mpr ⟨hderives, (List.append_nil _).symm⟩
  exact ⟨[⟨0, key, m.raw⟩], passedOn_of_scatter hname fun p => scatter_one _ hkeys hkey,
    .cons ⟨hwhole, hkey⟩ .nil⟩

/-- **Which pairs are forwarded.** For every request to set pairs that is read, with one complete
pair at least: unless it has four tokens, what is passed on has the pairs for its arguments, each of
them once, and an unpaired last argument goes nowhere, be it one pair or many. With four tokens,
that is with one pair and an argument more, the request itself is passed on, and with it that
argument. Each is read as a message to its last byte and is routed by its first argument, and a call
takes it to a servant or is refused. -/
theorem pairs_forwarded {b rest : Bytes} (hread : Message.read b = .done m rest)
    (hname : (m.token? 0).map (·.map Command.upper) = some (utf8 "MSET"))
    (hpairs : pairs m.arguments ≠ []) :
    ∃ (passed : List SubRequest) (parts : List Message),
      PassedOn m passed ∧ List.Forall₂ Delivers passed parts ∧
      (m.tokenCount ≠ 4 →
        parts.map (·.arguments) = (pairs m.arguments).map fun e => [e.1, e.2]) ∧
      (m.tokenCount = 4 →
        parts = [m] ∧ ∃ key value extra, m.arguments = [key, value, extra]) := by
  have hderives := (Message.read_done_iff.mp hread).1
  have hm : m.value.Sendable := Wire.sendable_of_derives hderives
  have hcount : m.arguments.length = m.tokenCount - 1 := by
    rw [Wire.tokenCount_of_sendable hm]
    exact List.length_drop
  match hargs : m.arguments with
  | [] | [_] =>
      rw [hargs] at hpairs
      exact absurd rfl hpairs
  | [key, value] =>
      obtain ⟨passed, hpassed, hparts⟩ := passedOn_whole hderives hname hargs (by simp)
      rw [hargs] at hcount
      refine ⟨passed, [m], hpassed, hparts, fun _ => ?_, fun hfour => ?_⟩
      · rw [List.map_singleton, hargs]
        rfl
      · rw [hfour] at hcount
        cases hcount
  | [key, value, extra] =>
      -- the short cut for one key, and more than one pair in the request
      obtain ⟨passed, hpassed, hparts⟩ := passedOn_whole hderives hname hargs (by simp)
      rw [hargs] at hcount
      have hfour : m.tokenCount = 4 := by
        simp only [List.length_cons, List.length_nil] at hcount
        omega
      exact ⟨passed, [m], hpassed, hparts, fun h => absurd hfour h,
        fun _ => ⟨rfl, key, value, extra, rfl⟩⟩
  | key :: value :: key' :: value' :: rest =>
      rw [hargs] at hcount
      obtain ⟨passed, parts, hpassed, hparts, harguments⟩ := passedOn_split hm hname
        (by rw [hargs]; exact Nat.le_add_left 2 _)
      rw [hargs] at harguments
      refine ⟨passed, parts, hpassed, hparts, fun _ => harguments, fun hfour => ?_⟩
      simp only [List.length_cons] at hcount
      omega

theorem read_asked {words : List String} (hcount : words.length ≤ 1024)
    (hwords : ∀ w ∈ words, (utf8 w).length ≤ 512 * 1024 * 1024) :
    Message.read (asked words).raw = .done (asked words) [] := by
  have hshort : ∀ p ∈ words.map utf8, p.length ≤ 512 * 1024 * 1024 := by
    rwa [List.forall_mem_map]
  have hsame : asked words = ⟨Wire.command (words.map utf8),
      .array (some (((words.map utf8).map some).map .bulk))⟩ := by
    unfold asked
    rw [List.map_map, List.map_map]
    rfl
  have hread := Wire.read_command (Wire.sendable_parts (by rwa [List.length_map]) hshort) []
  rwa [List.append_nil, ← hsame] at hread

/-- A proxy of one group with a live servant. -/
def sole.live : Proxy :=
  { sole with
    servants := #[{ Backend.Servant.ofProfile
      { name := "m", address := "127.0.0.1:10001", master := true } with active := true }] }

/-- Two pairs and an argument more, with a live servant and with one that is down. -/
theorem pairs_forwarded_many :
    let m := asked ["mset", "a", "1", "b", "2", "x"]
    Message.read m.raw = .done m [] ∧
      ∃ passed parts, List.Forall₂ Delivers passed parts ∧
        parts.map (·.arguments) = [[utf8 "a", utf8 "1"], [utf8 "b", utf8 "2"]] ∧
        (∃ merge, (sole.live.begin m true).1 =
          .forwarded merge (sole.live.forwardAll true passed).1) ∧
        List.Forall₂ Takes passed (sole.forwardAll true passed).1 := by
  intro m
  have hread : Message.read m.raw = .done m [] := read_asked (by decide) (by decide)
  obtain ⟨passed, parts, ⟨merge, hpassed⟩, hparts, hpairs, _⟩ :=
    pairs_forwarded hread (by decide) (by decide)
  refine ⟨hread, passed, parts, hparts, hpairs (by decide), ⟨merge, ?_⟩, ?_⟩
  · rw [((hpassed sole.live true).2 rfl).1]
  · exact ((hpassed sole true).2 rfl).2

/-- With one pair, the argument that is no part of it goes to the servant along with the pair. -/
theorem unpaired_forwarded :
    let m := asked ["MSET", "a", "1", "x"]
    Message.read m.raw = .done m [] ∧
      pairs m.arguments = [(utf8 "a", utf8 "1")] ∧
      (sole.live.begin m true).1 = .forwarded .relay [.send 0 m.raw] ∧
      m.arguments = [utf8 "a", utf8 "1", utf8 "x"] := by
  intro m
  exact ⟨read_asked (by decide) (by decide), by decide, by decide +kernel, by decide⟩

end Proxy

end ShardProxy
