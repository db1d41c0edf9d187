import ShardProxy.Proofs.Proxy.Framing

/-!
# Replies in any order

A request for several keys becomes one call a key, and the replies to the calls come in any order.
The client cannot tell in which: the merged reply is made of the replies by position.

* `Proxy.scatter_of_keys` — one call a key;
* `Command.Aggregation.merge_gather_perm` — in which order the replies come makes no difference;
* `Command.Aggregation.merged_by_position` — all that a sequence of replies, with duplicates and
  strays in it, leads to, where they are taken in until none is missing.
-/

namespace ShardProxy

open Text (utf8)
open Wire (Message)

/-! ## Calls -/

/-- A request for several keys is forwarded, one call a key. -/
theorem Proxy.scatter_of_keys (p : Proxy) (spec : Command.Spec) {kind : Command.Multi}
    {request : Message} (hkeys : 2 ≤ kind.keyCount request) :
    ∃ sent p', p.scatter kind spec request = (.forwarded (.scattered kind) sent, p') ∧
      sent.length = kind.keyCount request := by
  refine ⟨_, _, scatter_many spec hkeys, ?_⟩
  rw [length_forwardAll, Command.split, List.length_map, List.length_range]

namespace Command.Aggregation

/-- Replies by position, in the order of the positions. -/
def inOrder (replies : List Bytes) : List (Nat × Bytes) := replies.zipIdx.map fun (r, i) => (i, r)

theorem keys_inOrder (replies : List Bytes) :
    (inOrder replies).map (·.1) = List.range replies.length := by
  unfold inOrder
  rw [List.map_map, List.range_eq_range']
  exact List.zipIdx_map_snd 0 replies

variable {replies : List Bytes} {order : List (Nat × Bytes)}

/-- Each position has one reply, in whatever order they come. -/
theorem lookup_of_perm (horder : order.Perm (inOrder replies)) (i : Nat) :
    order.lookup i = replies[i]? := by
  have hkeys : ((inOrder replies).map (·.1)).Nodup := by
    rw [keys_inOrder]
    exact List.nodup_range
  have hlookup := lookup_zipIdx replies 0 i
  rw [Nat.zero_add] at hlookup
  rw [lookup_perm hkeys horder.symm]
  exact hlookup

theorem firsts_of_perm (horder : order.Perm (inOrder replies)) :
    firsts replies.length order = replies := by
  refine List.ext_getElem? fun i => ?_
  unfold firsts
  rw [List.getElem?_map]
  by_cases hi : i < replies.length
  · rw [List.getElem?_range hi, Option.map_some, lookup_of_perm horder, List.getElem?_eq_getElem hi]
    rfl
  · rw [List.getElem?_eq_none (by simpa using hi), List.getElem?_eq_none (Nat.le_of_not_lt hi)]
    rfl

/-- **The order of the replies does not show.** Taken in as they come, until none is missing, they
are merged to what they are merged to in the order of the positions. -/
theorem merge_gather_perm (kind : Multi) (horder : order.Perm (inOrder replies)) :
    ((start kind replies.length).gather order).merge =
      (Proxy.Merge.scattered kind).reply replies := by
  have hcounted := counted_start kind replies.length
  show _ = ((start kind replies.length).gather (inOrder replies)).merge
  rw [hcounted.gather_eq_after, hcounted.gather_eq_after]
  refine merge_after_congr kind fun i _ => ?_
  rw [lookup_of_perm horder, lookup_of_perm (List.Perm.refl _)]

/-- **Replies are merged by position.** For every sequence of replies, with some for the same
position and some for none: the counter says for how many positions one has come, the answer to a
reply says whether it is the last one that was missing, and to take replies in until none is missing
is to take all of them in. The merged reply is made of the first reply to each position, with an
error for each that has none. An array has them all, in order; pairs are stored if all of them are,
and else the first refusal is passed on; counts are added up, one after the other. So a request for
several keys is answered with the merge of all replies to its calls, in whatever order they come. -/
theorem merged_by_position (kind : Multi) (count : Nat) (calls : List (Nat × Bytes)) :
    let a := (start kind count).after calls
    let replies := firsts count calls
    a.completed = ((calls.map (·.1)).filter (· < count)).dedup.length ∧
    (∀ i reply, (a.complete i reply).1 = true ↔
      i < count ∧ i ∉ calls.map (·.1) ∧ ∀ j < count, j ≠ i → j ∈ calls.map (·.1)) ∧
    (start kind count).gather calls = a ∧
    (∀ calls', (∀ i < count, calls'.lookup i = calls.lookup i) →
      ((start kind count).after calls').merge = a.merge) ∧
    (kind = .get → a.merge = Wire.writeArrayHeader count ++ replies.flatten) ∧
    (kind = .set →
      ((∀ r ∈ replies, IsOk r) → a.merge = Wire.Reply.ok) ∧
      ∀ front r back, replies = front ++ r :: back → (∀ q ∈ front, IsOk q) → ¬ IsOk r →
        a.merge = r) ∧
    (kind = .del → Addable (replies.filterMap integerOf?) →
      a.merge = Wire.writeInteger (replies.filterMap integerOf?).sum) ∧
    (∀ (p : Proxy) (spec : Spec) (request : Message), 2 ≤ kind.keyCount request →
      ∃ sent p', p.scatter kind spec request = (.forwarded (.scattered kind) sent, p') ∧
        sent.length = kind.keyCount request ∧
        ∀ replies order, replies.length = sent.length → order.Perm (inOrder replies) →
          firsts sent.length order = replies ∧
            ((start kind sent.length).gather order).merge =
              ((start kind sent.length).after order).merge ∧
            ((start kind sent.length).gather order).merge =
              (Proxy.Merge.scattered kind).reply replies) := by
  intro a replies
  refine ⟨completed_after_start kind count calls, complete_fst_after_start kind count calls,
    (counted_start kind count).gather_eq_after calls,
    fun calls' hsame => merge_after_congr kind hsame, ?_, ?_, ?_, ?_⟩
  · rintro rfl
    exact merge_get count calls
  · rintro rfl
    exact ⟨merge_set_ok, fun front r back => merge_set_refused⟩
  · rintro rfl hadd
    exact merge_del hadd
  · intro p spec request hkeys
    obtain ⟨sent, p', hscatter, hcount⟩ := p.scatter_of_keys spec hkeys
    refine ⟨sent, p', hscatter, hcount, fun replies order hlength horder => ?_⟩
    rw [← hlength]
    exact ⟨firsts_of_perm horder,
      congrArg merge ((counted_start kind replies.length).gather_eq_after order),
      merge_gather_perm kind horder⟩

/-- Two counts come twice, one of them for no key; of three pairs one has no reply, and another was
refused; and of two values the second comes first. -/
theorem merged_by_position_keys :
    let counts := [(1, utf8 ":2\r\n"), (7, utf8 ":5\r\n"), (0, utf8 ":1\r\n"), (1, utf8 ":9\r\n")]
    let pairs := [(2, utf8 "-ERR late\r\n"), (0, Wire.Reply.ok)]
    let values := [(1, utf8 "$-1\r\n"), (0, utf8 "$1\r\nA\r\n")]
    let request := Proxy.asked ["MGET", "a", "b"]
    ((start .del 2).gather counts).merge = Wire.writeInteger 3 ∧
    ((start .set 3).gather pairs).merge = Wire.Reply.requestError ∧
    2 ≤ Multi.get.keyCount request ∧
    ∃ sent p', Proxy.sole.scatter .get ⟨"MGET", .multiGet, false⟩ request =
        (.forwarded (.scattered .get) sent, p') ∧
      ((start .get sent.length).gather values).merge =
        (Proxy.Merge.scattered .get).reply [utf8 "$1\r\nA\r\n", utf8 "$-1\r\n"] := by
  intro counts pairs values request
  refine ⟨?_, ?_, by decide, ?_⟩
  · obtain ⟨-, -, hgather, -, -, -, hdel, -⟩ := merged_by_position .del 2 counts
    rw [hgather]
    refine hdel rfl fun k => ?_
    have hnumbers : (firsts 2 counts).filterMap integerOf? = [1, 2] := by decide
    rw [hnumbers]
    match k with
    | 0 => decide
    | 1 => decide
    | k + 2 =>
        rw [List.take_of_length_le (Nat.le_add_left 2 k)]
        decide
  · obtain ⟨-, -, hgather, -, -, hset, -⟩ := merged_by_position .set 3 pairs
    rw [hgather]
    refine (hset rfl).2 [Wire.Reply.ok] Wire.Reply.requestError [utf8 "-ERR late\r\n"]
      (by decide) ?_ ?_
    · intro q hq
      obtain rfl := List.mem_singleton.mp hq
      exact (stored_iff _).mp (by decide)
    · rw [← stored_iff]
      decide
  · obtain ⟨sent, p', hscatter, hcount, hgather⟩ :=
      (merged_by_position .get 2 values).2.2.2.2.2.2.2 .sole ⟨"MGET", .multiGet, false⟩ request
        (by decide)
    refine ⟨sent, p', hscatter, (hgather _ values ?_ ?_).2.2⟩
    · rw [hcount]
      decide
    · decide

end Command.Aggregation

end ShardProxy
