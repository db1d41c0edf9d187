import ShardProxy.Command.Scatter
import ShardProxy.Proofs.Wire.Encoding

/-!
# Splitting requests

A request for several keys is split into one request a key. The arguments are cut into pieces, one
piece a key, in order; a sub-request carries the single-key command and one piece. So nothing is
lost on the way to the servants but an argument that belongs to no key.

* `Multi.piece`, `Multi.flatMap_piece` — the pieces, and that they make up the arguments;
* `request_subRequest`, `key_subRequest` — a sub-request carries its piece;
* `Carries`, `forall₂_split` — what a sub-request is read back as;
* `split_lossless` — all sub-requests of a request together.
-/

namespace ShardProxy

open Wire (Message)

/-- The tokens after the command. -/
def Wire.Message.arguments (m : Message) : List Bytes := m.tokens.drop 1

namespace Command

namespace Multi

variable (kind : Multi) (args : List Bytes)

/-- The arguments that belong to keys: all of them, but for pairs an unpaired last one. -/
def whole : List Bytes := if kind = .set ∧ args.length % 2 = 1 then args.dropLast else args

/-- The arguments of key number `i`. -/
def piece (i : Nat) : List Bytes := (args.drop (i * kind.stride)).take kind.stride

theorem stride_pos : 0 < kind.stride := by cases kind <;> decide

theorem whole_eq_take : kind.whole args = args.take (args.length / kind.stride * kind.stride) := by
  unfold whole
  cases kind with
  | get | del => simp [stride]
  | set =>
      rw [show Multi.stride .set = 2 from rfl]
      -- half the length, rounded down, is the number of pairs
      by_cases hodd : args.length % 2 = 1
      · rw [if_pos ⟨rfl, hodd⟩, List.dropLast_eq_take]
        congr 1
        omega
      · rw [if_neg (fun h => hodd h.2), List.take_of_length_le (by omega)]

/-- One piece after the other. -/
theorem flatMap_piece (n : Nat) :
    (List.range n).flatMap (kind.piece args) = args.take (n * kind.stride) := by
  induction n with
  | zero => simp
  | succ n ih =>
      rw [List.range_succ, List.flatMap_append, ih, List.flatMap_singleton, Nat.succ_mul,
        List.take_add]
      rfl

variable {args} {i : Nat}

theorem length_piece (hi : i < args.length / kind.stride) :
    (kind.piece args i).length = kind.stride := by
  have hend : (i + 1) * kind.stride ≤ args.length :=
    (Nat.le_div_iff_mul_le kind.stride_pos).mp hi
  rw [Nat.succ_mul] at hend
  unfold piece
  rw [List.length_take, List.length_drop]
  omega

theorem mem_of_mem_piece {p : Bytes} (hp : p ∈ kind.piece args i) : p ∈ args :=
  List.mem_of_mem_drop (List.mem_of_mem_take hp)

end Multi

variable {kind : Multi} {m : Message} {i : Nat}

/-! ## One sub-request -/

theorem keyCount_of_sendable (hm : m.value.Sendable) :
    kind.keyCount m = m.arguments.length / kind.stride := by
  unfold Multi.keyCount Message.arguments
  rw [Wire.tokenCount_of_sendable hm, List.length_drop]

/-- The arguments of a key are looked up one by one, and each of them is there. -/
theorem arguments_eq_piece (hm : m.value.Sendable) (hi : i < kind.keyCount m) :
    ((List.range kind.stride).map fun k => (m.token? (1 + i * kind.stride + k)).getD []) =
      kind.piece m.arguments i := by
  rw [keyCount_of_sendable hm] at hi
  have hlength := kind.length_piece hi
  refine List.ext_getElem (by simp [hlength]) fun k hk hk' => ?_
  have htoken : (kind.piece m.arguments i)[k]? = m.token? (1 + i * kind.stride + k) := by
    rw [Wire.token?_of_sendable hm]
    unfold Multi.piece Message.arguments
    rw [List.getElem?_take_of_lt (hlength ▸ hk'), List.getElem?_drop, List.getElem?_drop,
      Nat.add_assoc]
  rw [List.getElem_map, List.getElem_range, ← htoken, List.getElem?_eq_getElem hk']
  rfl

/-- A sub-request is the command for one key with the arguments of that key. -/
theorem request_subRequest (hm : m.value.Sendable) (hi : i < kind.keyCount m) :
    (subRequest kind m i).request = Wire.command (kind.single :: kind.piece m.arguments i) := by
  rw [← arguments_eq_piece hm hi]
  rfl

/-- The key that a sub-request is routed by is the first of its arguments. -/
theorem key_subRequest (hm : m.value.Sendable) (hi : i < kind.keyCount m) :
    ∃ values, kind.piece m.arguments i = (subRequest kind m i).key :: values ∧
      values.length + 1 = kind.stride := by
  have hlength : (kind.piece m.arguments i).length = kind.stride :=
    kind.length_piece (keyCount_of_sendable hm ▸ hi)
  have hfirst : (kind.piece m.arguments i)[0]? = some (subRequest kind m i).key := by
    rw [← arguments_eq_piece hm hi, List.getElem?_map, List.getElem?_range kind.stride_pos]
    rfl
  cases hpiece : kind.piece m.arguments i with
  | nil =>
      rw [hpiece] at hfirst
      cases hfirst
  | cons key values =>
      rw [hpiece] at hfirst hlength
      cases hfirst
      exact ⟨values, rfl, hlength⟩

/-- What a sub-request is read back as: an array of the single-key command, the key that it is
routed by, and for a pair one value. -/
structure Carries (kind : Multi) (sub : SubRequest) (part : Message) : Prop where
  read : Message.read sub.request = .done part []
  array : part.kind = .array
  count : part.tokenCount = kind.stride + 1
  tokens : ∃ values, part.tokens = kind.single :: sub.key :: values ∧
    values.length + 1 = kind.stride

/-- The message of one key. -/
def part (kind : Multi) (m : Message) (i : Nat) : Message :=
  let parts := kind.single :: kind.piece m.arguments i
  ⟨Wire.command parts, .array (some ((parts.map some).map .bulk))⟩

theorem tokens_part (kind : Multi) (m : Message) (i : Nat) :
    (part kind m i).tokens = kind.single :: kind.piece m.arguments i :=
  Wire.tokens_array _ _

theorem arguments_part (kind : Multi) (m : Message) (i : Nat) :
    (part kind m i).arguments = kind.piece m.arguments i := by
  unfold Message.arguments
  rw [tokens_part, List.drop_one, List.tail_cons]
  rfl

/-- The wire can carry what it has carried once. -/
theorem sendable_part (hm : m.value.Sendable) (hi : i < kind.keyCount m) :
    (part kind m i).value.Sendable := by
  obtain ⟨_, hshort⟩ := Wire.tokens_of_sendable hm
  refine Wire.sendable_parts ?_ fun p hp => ?_
  · rw [List.length_cons, kind.length_piece (keyCount_of_sendable hm ▸ hi)]
    cases kind <;> decide
  · rcases List.mem_cons.mp hp with rfl | hp
    · cases kind <;> decide
    · exact hshort p (List.mem_of_mem_drop (kind.mem_of_mem_piece hp))

theorem carries_part (hm : m.value.Sendable) (hi : i < kind.keyCount m) :
    Carries kind (subRequest kind m i) (part kind m i) := by
  have hpart := sendable_part hm hi
  obtain ⟨values, hpiece, hvalues⟩ := key_subRequest hm hi
  have htokens := tokens_part kind m i
  rw [hpiece] at htokens
  refine ⟨?_, rfl, ?_, values, htokens, hvalues⟩
  · have hread := Wire.read_command hpart []
    rw [List.append_nil] at hread
    rw [request_subRequest hm hi]
    exact hread
  · rw [Wire.tokenCount_of_sendable hpart, htokens, List.length_cons, List.length_cons, hvalues]

/-! ## All sub-requests -/

/-- Each sub-request carries its piece, in order. -/
theorem forall₂_split (hm : m.value.Sendable) (kind : Multi) :
    List.Forall₂ (Carries kind) (split kind m)
      ((List.range (kind.keyCount m)).map (part kind m)) := by
  unfold split
  rw [List.forall₂_map_left_iff, List.forall₂_map_right_iff, List.forall₂_same]
  exact fun i hi => carries_part hm (List.mem_range.mp hi)

/-- **Splitting loses nothing.** For every message that is read and every kind of request: there is
one sub-request a key, numbered from zero in order. Each is read back, to its last byte, as an array
of the single-key command, the key that it is routed by and, where pairs are set, one value. The
arguments of all of them, one after the other, are those of the message, without an unpaired last
one where pairs are set. -/
theorem split_lossless {b rest : Bytes} (hread : Message.read b = .done m rest) (kind : Multi) :
    (split kind m).map (·.index) = List.range (kind.keyCount m) ∧
    ∃ parts : List Message,
      List.Forall₂ (Carries kind) (split kind m) parts ∧
      parts.flatMap (·.arguments) = kind.whole m.arguments := by
  have hm : m.value.Sendable := Wire.sendable_of_derives (Message.read_done_iff.mp hread).1
  refine ⟨?_, (List.range (kind.keyCount m)).map (part kind m), forall₂_split hm kind, ?_⟩
  · unfold split
    rw [List.map_map]
    exact List.map_id _
  · rw [List.flatMap_map, kind.whole_eq_take, ← keyCount_of_sendable hm, ← kind.flatMap_piece]
    simp only [arguments_part]

/-- Two pairs, one of them with a null key, and an argument that belongs to no pair. -/
def unpaired : Message :=
  let items : List (Option Bytes) :=
    [some (Text.utf8 "MSET"), some [97], some [49], none, some [50], some [120]]
  let v : Wire.Value := .array (some (items.map .bulk))
  ⟨v.encode, v⟩

theorem split_lossless_unpaired :
    Message.read unpaired.raw = .done unpaired [] ∧
      (split .set unpaired).map (·.index) = [0, 1] ∧
      ∃ parts : List Message, List.Forall₂ (Carries .set) (split .set unpaired) parts ∧
        parts.flatMap (·.arguments) = [[97], [49], [], [50]] := by
  have hsendable : unpaired.value.Sendable := .array (by decide) (by unfold Wire.Carried; decide)
  have hread : Message.read unpaired.raw = .done unpaired [] := by
    have hread := Wire.read_encode hsendable []
    rwa [List.append_nil] at hread
  obtain ⟨hindices, parts, hparts, harguments⟩ := split_lossless hread .set
  exact ⟨hread, hindices, parts, hparts, harguments⟩

end Command

end ShardProxy
