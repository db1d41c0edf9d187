import ShardProxy.Command.Scatter
import ShardProxy.Proofs.Lookup
import ShardProxy.Proofs.Wire.Frames

/-!
# Merging replies

The replies to a multi-key request are recorded by position, in whatever order they come. A position
keeps the first reply that comes for it; positions that there are not take none.

* `Aggregation.after` — the replies after some have come in;
* `Aggregation.getElem?_after` — what each position holds then;
* `Aggregation.Counted` — the counter says how many positions hold a reply;
* `Aggregation.Counted.gather_eq_after` — so replies that come after the last missing one are none;
* `Aggregation.firsts`, `Aggregation.merge_after_start` — what the merged reply is made of;
* `Aggregation.Addable` — counts whose sum never leaves 64 bits;
* `Aggregation.frame_merge` — frames are merged to one frame.
-/

namespace ShardProxy

open Wire (Frame)

/-- Every fixed reply is a frame. -/
theorem Wire.Reply.frame_of_mem {reply : Bytes} (h : reply ∈ Wire.Reply.all) : Frame reply :=
  .of_isMessage ((by decide : ∀ r ∈ Wire.Reply.all, Wire.isMessage r = true) reply h)

namespace Command.Aggregation

/-- The replies after some have come in, each for a position. -/
def after (a : Aggregation) (calls : List (Nat × Bytes)) : Aggregation :=
  calls.foldl (fun a c => (a.complete c.1 c.2).2) a

variable {a : Aggregation}

theorem kind_complete (i : Nat) (reply : Bytes) : (a.complete i reply).2.kind = a.kind := by
  unfold complete
  split
  · rfl
  · rfl

theorem kind_after (calls : List (Nat × Bytes)) : (a.after calls).kind = a.kind := by
  induction calls generalizing a with
  | nil => rfl
  | cons c calls ih => exact ih.trans (kind_complete c.1 c.2)

/-- Only an empty position takes a reply. -/
theorem getElem?_complete (i j : Nat) (reply : Bytes) :
    (a.complete i reply).2.replies[j]? =
      a.replies[j]?.map fun r => if j = i then r.or (some reply) else r := by
  unfold complete
  split
  · rename_i hnone
    rw [List.getElem?_set]
    split
    · rename_i hij
      obtain ⟨hlt, hget⟩ := List.getElem?_eq_some_iff.mp hnone
      subst hij
      rw [if_pos hlt, hnone]
      simp
    · rename_i hij
      have hji : ¬ j = i := fun h => hij h.symm
      simp [hji]
  · -- the position is taken, or there is none
    rename_i hnone
    cases hj : a.replies[j]? with
    | none => rfl
    | some r =>
        rw [Option.map_some]
        split
        · rename_i hji
          subst hji
          cases r with
          | none => exact absurd hj hnone
          | some r => rfl
        · rfl

/-- Each position holds what it held, or else the first reply that came for it. -/
theorem getElem?_after (calls : List (Nat × Bytes)) (j : Nat) :
    (a.after calls).replies[j]? = a.replies[j]?.map fun r => r.or (calls.lookup j) := by
  induction calls generalizing a with
  | nil => simp [after]
  | cons c calls ih =>
      obtain ⟨i, reply⟩ := c
      show ((a.complete i reply).2.after calls).replies[j]? = _
      rw [ih, getElem?_complete, Option.map_map, List.lookup_cons]
      congr 1
      funext r
      by_cases hji : j = i
      · subst hji
        cases r <;> simp
      · have hne : (j == i) = false := beq_false_of_ne hji
        simp [hji, hne]

theorem lookup_zipIdx (replies : List Bytes) (k j : Nat) :
    ((replies.zipIdx k).map Prod.swap).lookup (k + j) = replies[j]? := by
  induction replies generalizing k j with
  | nil => rfl
  | cons reply replies ih =>
      rw [List.zipIdx_cons, List.map_cons, Prod.swap_prod_mk, List.lookup_cons]
      cases j with
      | zero => simp
      | succ j =>
          have hne : (k + (j + 1) == k) = false := beq_false_of_ne (by omega)
          have hrest := ih (k + 1) j
          rw [Nat.add_right_comm, Nat.add_assoc] at hrest
          rw [hne, List.getElem?_cons_succ]
          exact hrest

/-- After replies to a fresh request each position holds the first that came for it. -/
theorem replies_after_start (kind : Multi) (count : Nat) (calls : List (Nat × Bytes)) :
    ((start kind count).after calls).replies = (List.range count).map (calls.lookup ·) := by
  refine List.ext_getElem? fun j => ?_
  rw [getElem?_after, List.getElem?_map]
  show (List.replicate count none)[j]?.map _ = _
  by_cases hj : j < count
  · rw [List.getElem?_replicate, if_pos hj, List.getElem?_range hj]
    rfl
  · rw [List.getElem?_replicate, if_neg hj, List.getElem?_eq_none (by simpa using hj)]
    rfl

/-- Replies that come in the order of the positions fill all of them. -/
theorem replies_after_inOrder (kind : Multi) (replies : List Bytes) :
    ((start kind replies.length).after (replies.zipIdx.map fun (r, i) => (i, r))).replies =
      replies.map some := by
  rw [replies_after_start]
  refine List.ext_getElem? fun j => ?_
  have hlookup := lookup_zipIdx replies 0 j
  rw [Nat.zero_add] at hlookup
  rw [List.getElem?_map, List.getElem?_map]
  by_cases hj : j < replies.length
  · rw [List.getElem?_range hj, Option.map_some, List.getElem?_eq_getElem hj, Option.map_some]
    rw [List.getElem?_eq_getElem hj] at hlookup
    exact congrArg some hlookup
  · rw [List.getElem?_eq_none (by simpa using hj), List.getElem?_eq_none (Nat.le_of_not_lt hj)]
    rfl

/-! ## The counter -/

/-- The counter says how many positions have a reply. -/
def Counted (a : Aggregation) : Prop := a.completed = a.replies.countP (·.isSome)

theorem counted_start (kind : Multi) (count : Nat) : (start kind count).Counted := by
  show 0 = (List.replicate count none).countP _
  rw [List.countP_replicate]
  rfl

theorem Counted.complete (h : a.Counted) (i : Nat) (reply : Bytes) :
    (a.complete i reply).2.Counted := by
  unfold Aggregation.complete
  split
  · rename_i hnone
    obtain ⟨hlt, hget⟩ := List.getElem?_eq_some_iff.mp hnone
    show a.completed + 1 = (a.replies.set i (some reply)).countP _
    rw [List.countP_set hlt, hget, h]
    rfl
  · exact h

theorem Counted.after (h : a.Counted) (calls : List (Nat × Bytes)) : (a.after calls).Counted := by
  induction calls generalizing a with
  | nil => exact h
  | cons c calls ih => exact ih (h.complete c.1 c.2)

/-- The counter has come to the number of positions when none is empty. -/
theorem Counted.isComplete_iff (h : a.Counted) :
    a.isComplete = true ↔ ∀ r ∈ a.replies, r.isSome = true := by
  unfold isComplete target
  rw [beq_iff_eq, h, List.countP_eq_length]

/-- A reply is the last one missing if it fills a position and no other position is empty. -/
theorem Counted.complete_fst_iff (h : a.Counted) (i : Nat) (reply : Bytes) :
    (a.complete i reply).1 = true ↔
      a.replies[i]? = some none ∧ ∀ j r, j ≠ i → a.replies[j]? = some r → r.isSome = true := by
  by_cases hnone : a.replies[i]? = some none
  · have hnext := (h.complete i reply).isComplete_iff
    have hanswer : (a.complete i reply).1 = (a.complete i reply).2.isComplete := by
      unfold Aggregation.complete
      rw [hnone]
    rw [hanswer, hnext, and_iff_right hnone]
    constructor
    · intro hall j r hji hj
      refine hall r (List.mem_of_getElem? (i := j) ?_)
      rw [getElem?_complete, hj, Option.map_some, if_neg hji]
    · intro hothers r hr
      obtain ⟨j, hj⟩ := List.getElem?_of_mem hr
      rw [getElem?_complete] at hj
      obtain ⟨r', hr', rfl⟩ := Option.map_eq_some_iff.mp hj
      by_cases hji : j = i
      · subst hji
        rw [hnone] at hr'
        cases hr'
        simp
      · rw [if_neg hji]
        exact hothers j r' hji hr'
  · -- no position is filled
    have hanswer : (a.complete i reply).1 = false := by
      unfold Aggregation.complete
      split
      · rename_i hsome
        exact absurd hsome hnone
      · rfl
    rw [hanswer]
    exact ⟨fun hfalse => Bool.noConfusion hfalse, fun hlast => absurd hlast.1 hnone⟩

/-- Where no position is empty nothing more is recorded. -/
theorem complete_of_full (hfull : ∀ r ∈ a.replies, r.isSome = true) (i : Nat) (reply : Bytes) :
    (a.complete i reply).2 = a := by
  unfold complete
  split
  · rename_i hnone
    cases hfull none (List.mem_of_getElem? hnone)
  · rfl

theorem after_of_full (hfull : ∀ r ∈ a.replies, r.isSome = true) (calls : List (Nat × Bytes)) :
    a.after calls = a := by
  induction calls with
  | nil => rfl
  | cons c calls ih =>
      show ((a.complete c.1 c.2).2).after calls = a
      rw [complete_of_full hfull]
      exact ih

/-- **Nothing is lost by an early end.** Replies are taken in until the counter says that none is
missing, and those that come after it would change nothing. -/
theorem Counted.gather_eq_after (h : a.Counted) (calls : List (Nat × Bytes)) :
    a.gather calls = a.after calls := by
  induction calls generalizing a with
  | nil => rfl
  | cons c calls ih =>
      obtain ⟨i, reply⟩ := c
      have hcounted := h.complete i reply
      show (if (a.complete i reply).1 then (a.complete i reply).2
        else (a.complete i reply).2.gather calls) = (a.complete i reply).2.after calls
      split
      · rename_i hlast
        have hfull : (a.complete i reply).2.isComplete = true := by
          unfold Aggregation.complete at hlast ⊢
          split at hlast
          · exact hlast
          · cases hlast
        exact (after_of_full (hcounted.isComplete_iff.mp hfull) calls).symm
      · exact ih hcounted

/-- The counter says for how many positions a reply has come. -/
theorem completed_after_start (kind : Multi) (count : Nat) (calls : List (Nat × Bytes)) :
    ((start kind count).after calls).completed =
      ((calls.map (·.1)).filter (· < count)).dedup.length := by
  rw [(counted_start kind count).after calls, replies_after_start, List.countP_map,
    List.countP_eq_length_filter]
  refine ((List.perm_ext_iff_of_nodup (List.nodup_range.filter _) (List.nodup_dedup _)).mpr
    fun j => ?_).length_eq
  rw [List.mem_filter, List.mem_range, Function.comp_apply, lookup_isSome, List.mem_dedup,
    List.mem_filter, decide_eq_true_iff, and_comm]

/-- The reply that fills the last position without one. -/
theorem complete_fst_after_start (kind : Multi) (count : Nat) (calls : List (Nat × Bytes)) (i : Nat)
    (reply : Bytes) :
    (((start kind count).after calls).complete i reply).1 = true ↔
      i < count ∧ i ∉ calls.map (·.1) ∧ ∀ j < count, j ≠ i → j ∈ calls.map (·.1) := by
  have hposition : ∀ j r, ((start kind count).after calls).replies[j]? = some r ↔
      j < count ∧ calls.lookup j = r := by
    intro j r
    rw [replies_after_start, List.getElem?_map, Option.map_eq_some_iff]
    simp only [List.getElem?_eq_some_iff, List.length_range, List.getElem_range, exists_prop,
      and_assoc, exists_and_left, exists_eq_left']
  have hempty : ∀ j, calls.lookup j = none ↔ j ∉ calls.map (·.1) := by
    intro j
    rw [← lookup_isSome, Bool.not_eq_true, Option.isSome_eq_false_iff, Option.isNone_iff_eq_none]
  rw [((counted_start kind count).after calls).complete_fst_iff, hposition, hempty, and_assoc]
  refine and_congr_right fun _ => and_congr_right fun _ => ?_
  simp only [hposition]
  constructor
  · intro hothers j hj hji
    exact lookup_isSome.mp (hothers j _ hji ⟨hj, rfl⟩)
  · rintro hothers j r hji ⟨hj, rfl⟩
    exact lookup_isSome.mpr (hothers j hj hji)

/-! ## Merged replies -/

/-- The reply to each position: the first that came for it, or an error if none came. -/
def firsts (count : Nat) (calls : List (Nat × Bytes)) : List Bytes :=
  (List.range count).map fun i => (calls.lookup i).getD Wire.Reply.requestError

/-- A reply that reads as the status OK. -/
def IsOk (reply : Bytes) : Prop :=
  ∃ m rest, Wire.Message.read reply = .done m rest ∧ m.value = .status (Text.utf8 "OK")

/-- The number that a reply reads as. -/
def integerOf? (reply : Bytes) : Option Int :=
  match Wire.Message.read reply with
  | .done ⟨_, .integer n⟩ _ => some n.toInt
  | _ => none

theorem stored_iff (reply : Bytes) : stored reply = true ↔ IsOk reply := by
  have hok : Text.utf8 "OK" = [79, 75] := by decide
  unfold stored message? IsOk
  cases hread : Wire.Message.read reply with
  | done m rest =>
      obtain ⟨raw, value⟩ := m
      rw [hok]
      cases value with
      | status text =>
          show (text == [79, 75]) = true ↔ _
          rw [beq_iff_eq]
          constructor
          · rintro rfl
            exact ⟨_, _, rfl, rfl⟩
          · rintro ⟨m, rest', hdone, hstatus⟩
            cases hdone
            cases hstatus
            rfl
      | error | integer | bulk | array =>
          refine ⟨fun hfalse => Bool.noConfusion hfalse, ?_⟩
          rintro ⟨m, rest', hdone, hstatus⟩
          cases hdone
          cases hstatus
  | incomplete =>
      refine ⟨fun hfalse => Bool.noConfusion hfalse, ?_⟩
      rintro ⟨m, rest, hdone, _⟩
      cases hdone
  | malformed why =>
      refine ⟨fun hfalse => Bool.noConfusion hfalse, ?_⟩
      rintro ⟨m, rest, hdone, _⟩
      cases hdone

theorem toInt_count (reply : Bytes) : (count reply).toInt = (integerOf? reply).getD 0 := by
  unfold count message? integerOf?
  cases Wire.Message.read reply with
  | done m rest =>
      obtain ⟨raw, value⟩ := m
      cases value with
      | integer n => rfl
      | status | error | bulk | array => rfl
  | incomplete => rfl
  | malformed why => rfl

/-- Counts are added modulo `2^64`. -/
theorem toInt_sum_count (replies : List Bytes) :
    (replies.map count).sum.toInt = ((replies.filterMap integerOf?).sum).bmod (2 ^ 64) := by
  induction replies with
  | nil => rfl
  | cons reply replies ih =>
      have hhead : (reply :: replies).filterMap integerOf? =
          (integerOf? reply).toList ++ replies.filterMap integerOf? := by
        cases h : integerOf? reply with
        | none => rw [List.filterMap_cons_none h]; rfl
        | some n => rw [List.filterMap_cons_some h]; rfl
      have hsum : ((integerOf? reply).toList).sum = (integerOf? reply).getD 0 := by
        cases integerOf? reply with
        | none => rfl
        | some n => exact Int.add_zero n
      rw [List.map_cons, List.sum_cons, Int64.toInt_add, ih, toInt_count, Int.add_bmod_bmod, hhead,
        List.sum_append, hsum]

theorem map_replies_after_start (kind : Multi) (count : Nat) (calls : List (Nat × Bytes)) :
    ((start kind count).after calls).replies.map (·.getD Wire.Reply.requestError) =
      firsts count calls := by
  rw [replies_after_start, List.map_map]
  rfl

/-- The merged reply is made of the first reply to each position alone. -/
theorem merge_after_start (kind : Multi) (count : Nat) (calls : List (Nat × Bytes)) :
    ((start kind count).after calls).merge =
      match kind with
      | .get => Wire.writeArrayHeader count ++ (firsts count calls).flatten
      | .set => ((firsts count calls).find? (!stored ·)).getD Wire.Reply.ok
      | .del => Wire.writeInteger (((firsts count calls).map Aggregation.count).sum).toInt := by
  have hcount : (firsts count calls).length = count := by
    rw [firsts, List.length_map, List.length_range]
  unfold merge
  dsimp only
  rw [map_replies_after_start, kind_after, hcount]
  rfl

/-- Where each position gets the same reply first, the merged reply is the same. -/
theorem merge_after_congr (kind : Multi) {count : Nat} {calls calls' : List (Nat × Bytes)}
    (hsame : ∀ i < count, calls'.lookup i = calls.lookup i) :
    ((start kind count).after calls').merge = ((start kind count).after calls).merge := by
  have hfirsts : firsts count calls' = firsts count calls := by
    refine List.map_congr_left fun i hi => ?_
    rw [hsame i (List.mem_range.mp hi)]
  rw [merge_after_start, merge_after_start, hfirsts]

/-- An array of all replies. -/
theorem merge_get (count : Nat) (calls : List (Nat × Bytes)) :
    ((start .get count).after calls).merge =
      Wire.writeArrayHeader count ++ (firsts count calls).flatten :=
  merge_after_start .get count calls

/-- The first reply that is not OK. -/
theorem merge_set_refused {count : Nat} {calls : List (Nat × Bytes)} {front back : List Bytes}
    {reply : Bytes} (hsplit : firsts count calls = front ++ reply :: back)
    (hfront : ∀ r ∈ front, IsOk r) (hreply : ¬ IsOk reply) :
    ((start .set count).after calls).merge = reply := by
  have hfind : (firsts count calls).find? (!stored ·) = some reply := by
    rw [List.find?_eq_some_iff_append]
    refine ⟨?_, front, back, hsplit, fun r hr => ?_⟩
    · rw [Bool.not_eq_true', ← Bool.not_eq_true, stored_iff]
      exact hreply
    · rw [Bool.not_not, stored_iff]
      exact hfront r hr
  rw [merge_after_start]
  exact congrArg (·.getD Wire.Reply.ok) hfind

/-- OK if every pair was stored. -/
theorem merge_set_ok {count : Nat} {calls : List (Nat × Bytes)}
    (hall : ∀ r ∈ firsts count calls, IsOk r) :
    ((start .set count).after calls).merge = Wire.Reply.ok := by
  have hfind : (firsts count calls).find? (!stored ·) = none := by
    rw [List.find?_eq_none]
    intro r hr hrefused
    rw [(stored_iff r).mpr (hall r hr)] at hrefused
    cases hrefused
  rw [merge_after_start]
  exact congrArg (·.getD Wire.Reply.ok) hfind

/-- Numbers that can be added up one by one in 64 bits: no sum on the way leaves them. -/
def Addable (numbers : List Int) : Prop :=
  ∀ k, -(2 ^ 63) ≤ (numbers.take k).sum ∧ (numbers.take k).sum < 2 ^ 63

/-- The sum of the numbers, where they can be added up in 64 bits. -/
theorem merge_del {count : Nat} {calls : List (Nat × Bytes)}
    (hadd : Addable ((firsts count calls).filterMap integerOf?)) :
    ((start .del count).after calls).merge =
      Wire.writeInteger ((firsts count calls).filterMap integerOf?).sum := by
  obtain ⟨hlow, hhigh⟩ := hadd ((firsts count calls).filterMap integerOf?).length
  rw [List.take_length] at hlow hhigh
  rw [merge_after_start]
  dsimp only
  rw [toInt_sum_count, Int.bmod_eq_of_le (by omega) (by omega)]

/-- Frames are merged to one frame, whatever the way to merge them. -/
theorem frame_merge (hcount : a.replies.length < 2 ^ 63)
    (hreplies : ∀ reply, some reply ∈ a.replies → Frame reply) : Frame a.merge := by
  have hall : ∀ reply ∈ a.replies.map (·.getD Wire.Reply.requestError), Frame reply := by
    intro reply hreply
    obtain ⟨r, hr, rfl⟩ := List.mem_map.mp hreply
    cases r with
    | none => exact Wire.Reply.frame_of_mem (by decide)  -- an error stands in for what is missing
    | some r => exact hreplies r hr
  unfold merge
  dsimp only
  split
  · obtain ⟨n, hn, hline⟩ := Wire.exists_numberLine _ hcount
    rw [List.length_map]
    refine .array hline ?_ hall
    rw [hn, List.length_map]
  · cases hfind : (a.replies.map (·.getD Wire.Reply.requestError)).find? (!stored ·) with
    | none => exact Wire.Reply.frame_of_mem (by decide)
    | some reply => exact hall reply (List.mem_of_find?_eq_some hfind)
  · exact .integer (Wire.numberLine_signed _)

end Command.Aggregation

end ShardProxy
