import ShardProxy.Proofs.Wire.Encoding

/-!
# Frames

A frame is what a client takes for one reply: a line of text without a carriage return in it, an
integer, a bulk string, or an array of frames of any form. Where one frame begins, only one does;
so a client that knows where the first of some replies begins knows where each of them ends.

* `Frame` — one complete reply;
* `Frame.unique` — at one place only one frame begins;
* `frame_status_iff` — what of status text makes it a frame;
* `Frame.of_derives` — a message is a frame.
-/

namespace ShardProxy.Wire

inductive Frame : Bytes → Prop where
  | status {text} : cr ∉ text → Frame (plus :: text ++ crlf)
  | error {text} : cr ∉ text → Frame (minus :: text ++ crlf)
  | integer {line n} : NumberLine line n → Frame (colon :: line)
  | bulk {p item} : BulkUnit p item → Frame p
  | null {line} : NumberLine line (-1) → Frame (star :: line)
  | array {line n} {parts : List Bytes} : NumberLine line n → n.toInt = parts.length →
      (∀ p ∈ parts, Frame p) → Frame (star :: line ++ parts.flatten)

/-- A frame by its first byte. -/
inductive Frame.From : UInt8 → Bytes → Prop where
  | status {text} : cr ∉ text → From plus (text ++ crlf)
  | error {text} : cr ∉ text → From minus (text ++ crlf)
  | integer {line n} : NumberLine line n → From colon line
  | bulk {part item} : BulkUnit (dollar :: part) item → From dollar part
  | null {line} : NumberLine line (-1) → From star line
  | array {line n} {parts : List Bytes} : NumberLine line n → n.toInt = parts.length →
      (∀ p ∈ parts, Frame p) → From star (line ++ parts.flatten)

theorem Frame.exists_from {p : Bytes} (h : Frame p) :
    ∃ tag part, p = tag :: part ∧ From tag part := by
  cases h with
  | status htext => exact ⟨_, _, rfl, .status htext⟩
  | error htext => exact ⟨_, _, rfl, .error htext⟩
  | integer hline => exact ⟨_, _, rfl, .integer hline⟩
  | null hline => exact ⟨_, _, rfl, .null hline⟩
  | array hline hcount hparts => exact ⟨_, _, rfl, .array hline hcount hparts⟩
  | bulk hitem =>
      cases hitem with
      | null hline => exact ⟨_, _, rfl, .bulk (.null hline)⟩
      | data hline hlen hshort => exact ⟨_, _, rfl, .bulk (.data hline hlen hshort)⟩

/-- Status text is a frame if its line ends where the text does. -/
theorem frame_status_iff {text : Bytes} : Frame (plus :: text ++ crlf) ↔ cr ∉ text := by
  constructor
  · intro h
    obtain ⟨tag, part, hbytes, hfrom⟩ := h.exists_from
    obtain ⟨htag, hpart⟩ := List.cons.inj hbytes
    cases hfrom with
    | @status line hline =>
        rw [List.append_cancel_right hpart]
        exact hline
    | _ => cases htag
  · exact Frame.status

/-- Frames one after the other, as many on both sides, are the same. -/
theorem flatten_unique {parts others : List Bytes} {s t : Bytes}
    (hlen : parts.length = others.length) (hothers : ∀ q ∈ others, Frame q)
    (hparts : ∀ p ∈ parts, ∀ {q s t : Bytes}, Frame q → p ++ s = q ++ t → p = q)
    (h : parts.flatten ++ s = others.flatten ++ t) : parts = others := by
  induction parts generalizing others with
  | nil => exact (List.length_eq_zero_iff.mp hlen.symm).symm
  | cons p parts ih =>
      cases others with
      | nil => cases hlen
      | cons q others =>
          rw [List.flatten_cons, List.flatten_cons, List.append_assoc, List.append_assoc] at h
          obtain rfl := hparts p List.mem_cons_self (hothers q List.mem_cons_self) h
          have hrest := List.append_cancel_left h
          rw [ih (Nat.succ.inj hlen) (fun q hq => hothers q (List.mem_cons_of_mem p hq))
            (fun p' hp' => hparts p' (List.mem_cons_of_mem p hp')) hrest]

/-- **At one place only one frame begins.** -/
theorem Frame.unique {p q s t : Bytes} (hp : Frame p) (hq : Frame q) (h : p ++ s = q ++ t) :
    p = q := by
  induction hp generalizing q s t with
  | @status text htext =>
      obtain ⟨tag, part, rfl, hfrom⟩ := hq.exists_from
      obtain ⟨rfl, hline⟩ := List.cons.inj h
      cases hfrom with
      | status htext' =>
          exact congrArg _ (reads_scanLine.unique ⟨htext, rfl⟩ ⟨htext', rfl⟩ hline).1
  | @error text htext =>
      obtain ⟨tag, part, rfl, hfrom⟩ := hq.exists_from
      obtain ⟨rfl, hline⟩ := List.cons.inj h
      cases hfrom with
      | error htext' =>
          exact congrArg _ (reads_scanLine.unique ⟨htext, rfl⟩ ⟨htext', rfl⟩ hline).1
  | integer hnumber =>
      obtain ⟨tag, part, rfl, hfrom⟩ := hq.exists_from
      obtain ⟨rfl, hline⟩ := List.cons.inj h
      cases hfrom with
      | integer hnumber' => exact congrArg _ (reads_scanNumber.unique hnumber hnumber' hline).1
  | @bulk p item hitem =>
      obtain ⟨body, rfl⟩ : ∃ body, p = dollar :: body := by
        cases hitem with
        | null => exact ⟨_, rfl⟩
        | data => exact ⟨_, rfl⟩
      obtain ⟨tag, part, rfl, hfrom⟩ := hq.exists_from
      obtain ⟨rfl, hunit⟩ := List.cons.inj h
      cases hfrom with
      | bulk hitem' => exact congrArg _ (reads_scanBulk.unique hitem hitem' hunit).1
  | null hnumber =>
      obtain ⟨tag, part, rfl, hfrom⟩ := hq.exists_from
      obtain ⟨rfl, hline⟩ := List.cons.inj h
      cases hfrom with
      | null hnumber' => exact congrArg _ (reads_scanNumber.unique hnumber hnumber' hline).1
      | array hnumber' hcount _ =>
          -- a length is never negative
          have hfirst := hline.trans (List.append_assoc _ _ _)
          obtain ⟨_, rfl, _⟩ := reads_scanNumber.unique hnumber hnumber' hfirst
          cases hcount
  | @array line n parts hnumber hcount _ ih =>
      obtain ⟨tag, part, rfl, hfrom⟩ := hq.exists_from
      obtain ⟨rfl, hline⟩ := List.cons.inj h
      have hfirst := (List.append_assoc _ _ _).symm.trans hline
      cases hfrom with
      | null hnumber' =>
          obtain ⟨_, rfl, _⟩ := reads_scanNumber.unique hnumber hnumber' hfirst
          cases hcount
      | @array line' n' parts' hnumber' hcount' hparts' =>
          have hboth := hfirst.trans (List.append_assoc _ _ _)
          obtain ⟨rfl, rfl, hrest⟩ := reads_scanNumber.unique hnumber hnumber' hboth
          have hlen : parts.length = parts'.length := by
            rw [hcount] at hcount'
            exact Int.ofNat.inj hcount'
          obtain rfl :=
            flatten_unique hlen hparts' (fun p hp {q s t} hq heq => ih p hp hq heq) hrest
          rfl

theorem exists_parts {p : Bytes} {items : List (Option Bytes)} (h : Bulks p items) :
    ∃ parts : List Bytes, p = parts.flatten ∧ parts.length = items.length ∧
      ∀ q ∈ parts, Frame q := by
  induction h with
  | nil => exact ⟨[], rfl, rfl, fun q hq => absurd hq List.not_mem_nil⟩
  | @cons p q item items hitem _ ih =>
      obtain ⟨parts, rfl, hlen, hparts⟩ := ih
      refine ⟨p :: parts, rfl, congrArg (· + 1) hlen, fun r hr => ?_⟩
      rcases List.mem_cons.mp hr with rfl | hr
      · exact .bulk hitem
      · exact hparts r hr

/-- A message is a frame. -/
theorem Frame.of_derives {p : Bytes} {v : Value} (h : Derives p v) : Frame p := by
  cases h with
  | status htext => exact .status htext
  | error htext => exact .error htext
  | integer hline => exact .integer hline
  | bulk hitem => exact .bulk hitem
  | array hitems =>
      cases hitems with
      | null hline => exact .null hline
      | items hline hlen _ hbulks =>
          obtain ⟨parts, rfl, hcount, hparts⟩ := exists_parts hbulks
          rw [← hcount] at hlen
          exact .array hline hlen hparts

/-- The bytes are one message. -/
def isMessage (b : Bytes) : Bool :=
  match Message.read b with
  | .done _ [] => true
  | _ => false

theorem Frame.of_isMessage {b : Bytes} (h : isMessage b = true) : Frame b := by
  unfold isMessage at h
  split at h
  · rename_i m hread
    obtain ⟨hm, hb⟩ := Message.read_done_iff.mp hread
    rw [List.append_nil] at hb
    rw [hb]
    exact .of_derives hm
  · cases h

end ShardProxy.Wire
