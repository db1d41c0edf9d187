import ShardProxy.Proofs.Wire.Units
import ShardProxy.Wire.Message

/-!
# Messages

What is read at the front of some bytes, and how it stands to more and to fewer of them:

* `Message.read_iff_derives` — the messages are the grammar's units, and no two of them begin at
  one place;
* `Message.read_incremental` — a verdict settles, and nothing shorter than a message has one.
-/

namespace ShardProxy.Wire

/-- A message is read exactly where the grammar derives a unit, and it is that unit's bytes. -/
theorem Message.read_done_iff {b rest : Bytes} {m : Message} :
    read b = .done m rest ↔ Derives m.raw m.value ∧ b = m.raw ++ rest := by
  simp only [read, Scan.andThen_eq_done, scan_done_iff, Scan.done.injEq]
  constructor
  · rintro ⟨v, mid, ⟨part, hpart, rfl⟩, rfl, rfl⟩
    simpa using hpart
  · rintro ⟨hm, rfl⟩
    exact ⟨m.value, rest, ⟨m.raw, hm, rfl⟩, by simp, rfl⟩

theorem frameLength_done_iff {b rest : Bytes} {n : Nat} :
    frameLength b = .done n rest ↔
      ∃ part v, Derives part v ∧ b = part ++ rest ∧ n = part.length := by
  simp only [frameLength, Scan.andThen_eq_done, scan_done_iff, Scan.done.injEq]
  constructor
  · rintro ⟨v, mid, ⟨part, hpart, rfl⟩, rfl, rfl⟩
    exact ⟨part, v, hpart, rfl, by simp⟩
  · rintro ⟨part, v, hpart, rfl, rfl⟩
    exact ⟨v, rest, ⟨part, hpart, rfl⟩, by simp, rfl⟩

/-- At one place only one unit begins. -/
theorem derives_unique {p q s t : Bytes} {v w : Value} (hp : Derives p v) (hq : Derives q w)
    (h : p ++ s = q ++ t) : p = q ∧ v = w := by
  have hv : scan (p ++ s) = .done v s := scan_done_iff.mpr ⟨p, hp, rfl⟩
  have hw : scan (p ++ s) = .done w t := scan_done_iff.mpr ⟨q, hq, h⟩
  rw [hv, Scan.done.injEq] at hw
  obtain ⟨rfl, rfl⟩ := hw
  exact ⟨List.append_cancel_right h, rfl⟩

/-- **Reading accepts exactly the grammar.** Some bytes begin with a message of a value and a
length exactly when the grammar derives that value from as many bytes at their front; and they
have only one such front. -/
theorem Message.read_iff_derives (b : Bytes) :
    (∀ v n, (∃ m rest, read b = .done m rest ∧ frameLength b = .done n rest ∧ m.value = v) ↔
      n ≤ b.length ∧ Derives (b.take n) v) ∧
    ∀ v w n k, n ≤ b.length ∧ Derives (b.take n) v → k ≤ b.length ∧ Derives (b.take k) w →
      n = k ∧ v = w := by
  refine ⟨fun v n => ⟨?_, ?_⟩, ?_⟩
  · rintro ⟨m, rest, hread, hlen, rfl⟩
    obtain ⟨hm, rfl⟩ := read_done_iff.mp hread
    obtain ⟨part, _, _, hpart, rfl⟩ := frameLength_done_iff.mp hlen
    rw [← List.append_cancel_right hpart]
    exact ⟨by simp, by simpa using hm⟩
  · rintro ⟨hn, hv⟩
    have hb : b = b.take n ++ b.drop n := (List.take_append_drop n b).symm
    refine ⟨⟨b.take n, v⟩, b.drop n, read_done_iff.mpr ⟨hv, hb⟩, ?_, rfl⟩
    exact frameLength_done_iff.mpr ⟨b.take n, v, hv, hb, by simp [hn]⟩
  · rintro v w n k ⟨hn, hv⟩ ⟨hk, hw⟩
    have hb : b.take n ++ b.drop n = b.take k ++ b.drop k := by simp
    obtain ⟨hnk, hvw⟩ := derives_unique hv hw hb
    have hlen := congrArg List.length hnk
    simp only [List.length_take] at hlen
    exact ⟨by omega, hvw⟩

/-- The request `PING`. -/
def Message.ping : Message :=
  ⟨[42, 49, 13, 10, 36, 52, 13, 10, 80, 73, 78, 71, 13, 10],
    .array (some [.bulk (some [80, 73, 78, 71])])⟩

/-- The grammar derives `PING`, because it is read, and nothing else at its place. -/
theorem Message.derives_ping :
    (14 ≤ (ping.raw ++ [plus]).length ∧ Derives ((ping.raw ++ [plus]).take 14) ping.value) ∧
      ¬ Derives ((ping.raw ++ [plus]).take 4) (.array (some [])) := by
  have hping : 14 ≤ (ping.raw ++ [plus]).length ∧
      Derives ((ping.raw ++ [plus]).take 14) ping.value :=
    ((read_iff_derives (ping.raw ++ [plus])).1 ping.value 14).mp ⟨ping, [plus], rfl, rfl, rfl⟩
  refine ⟨hping, fun hempty => ?_⟩
  have hlen := ((read_iff_derives (ping.raw ++ [plus])).2 _ _ 14 4 hping ⟨by decide, hempty⟩).1
  exact absurd hlen (by decide)

/-! ## More and fewer bytes -/

theorem frameLength_eq (b : Bytes) : frameLength b = (Message.read b).map (·.raw.length) := by
  cases h : scan b with
  | done v rest =>
      obtain ⟨part, _, rfl⟩ := scan_done_iff.mp h
      simp [frameLength, Message.read, h, Scan.map, Scan.andThen]
  | incomplete => simp [frameLength, Message.read, h, Scan.map, Scan.andThen]
  | malformed why => simp [frameLength, Message.read, h, Scan.map, Scan.andThen]

theorem spells_length {text : Bytes} {n : Int} (h : Spells text n) : 1 ≤ text.length := by
  cases h with
  | unsigned hne => exact List.length_pos_iff.mpr hne
  | plus => simp
  | minus => simp

theorem numberLine_length {line : Bytes} {n : Int64} (h : NumberLine line n) :
    3 ≤ line.length := by
  obtain ⟨htext⟩ := h
  have hlen := spells_length htext
  simp only [List.length_append, crlf, List.length_cons, List.length_nil]
  omega

/-- A unit has a tag and a line end at least. -/
theorem derives_length {part : Bytes} {v : Value} (h : Derives part v) : 3 ≤ part.length := by
  cases h with
  | status => simp [crlf]
  | error => simp [crlf]
  | integer hline => exact Nat.le_succ_of_le (numberLine_length hline)
  | bulk hitem =>
      cases hitem with
      | null hline => exact Nat.le_succ_of_le (numberLine_length hline)
      | data hline =>
          have hlen := numberLine_length hline
          simp only [List.length_append, List.length_cons]
          omega
  | array hitems =>
      cases hitems with
      | null hline => exact Nat.le_succ_of_le (numberLine_length hline)
      | items hline =>
          have hlen := numberLine_length hline
          simp only [List.length_append, List.length_cons]
          omega

namespace Message

/-- More bytes do not change a message. -/
theorem read_append {b rest : Bytes} {m : Message} (h : read b = .done m rest) (s : Bytes) :
    read (b ++ s) = .done m (rest ++ s) := by
  obtain ⟨hm, rfl⟩ := read_done_iff.mp h
  exact read_done_iff.mpr ⟨hm, List.append_assoc m.raw rest s⟩

theorem read_malformed {b : Bytes} {why : Defect} (hb : b ≠ []) (h : read b = .malformed why)
    (s : Bytes) : read (b ++ s) = .malformed why := by
  rcases Scan.andThen_eq_malformed.mp h with hscan | ⟨v, rest, _, hdone⟩
  · exact Scan.andThen_eq_malformed.mpr (.inl (scan_malformed hb hscan s))
  · cases hdone

/-- Nothing shorter than a message has a verdict. -/
theorem read_take {b rest : Bytes} {m : Message} (h : read b = .done m rest) {k : Nat}
    (hk : 1 ≤ k) (hlt : k < m.raw.length) : read (b.take k) = .incomplete := by
  obtain ⟨hm, hb⟩ := read_done_iff.mp h
  have hsplit : b.take k ++ b.drop k = b := List.take_append_drop k b
  cases hshort : read (b.take k) with
  | incomplete => rfl
  | done m' rest' =>
      -- a message at the same place, so it is this one, which is too long
      obtain ⟨hm', hb'⟩ := read_done_iff.mp hshort
      have hfront : m'.raw ++ (rest' ++ b.drop k) = m.raw ++ rest := by
        rw [← List.append_assoc, ← hb', hsplit, hb]
      obtain ⟨hraw, _⟩ := derives_unique hm' hm hfront
      have hlen := congrArg List.length hb'
      rw [hraw] at hlen
      simp only [List.length_take, List.length_append] at hlen
      omega
  | malformed why =>
      have hne : b.take k ≠ [] := by
        intro hnil
        have hlen := congrArg List.length hb
        simp only [List.length_append] at hlen
        have hzero := congrArg List.length hnil
        simp only [List.length_take, List.length_nil] at hzero
        omega
      have hbad := read_malformed hne hshort (b.drop k)
      rw [hsplit, h] at hbad
      cases hbad

end Message

/-- What a scan says about a value, whatever follows it; nothing while bytes are missing. -/
def Scan.verdict {α : Type} : Scan α → Option (Except Defect α)
  | done v _ => some (.ok v)
  | incomplete => none
  | malformed why => some (.error why)

namespace Message

/-- Reads again after each piece that comes in, until there is a verdict. -/
def readPieces (got : Bytes) : List Bytes → Scan Message
  | [] => .incomplete
  | piece :: pieces =>
    match read (got ++ piece) with
    | .incomplete => readPieces (got ++ piece) pieces
    | settled => settled

/-- The pieces reach the verdict on all bytes. -/
theorem verdict_readPieces (got : Bytes) (pieces : List Bytes) (hne : pieces ≠ [])
    (hpieces : ∀ p ∈ pieces, p ≠ []) :
    (readPieces got pieces).verdict = (read (got ++ pieces.flatten)).verdict := by
  induction pieces generalizing got with
  | nil => exact absurd rfl hne
  | cons piece pieces ih =>
      rw [List.flatten_cons, ← List.append_assoc]
      have hpiece : piece ≠ [] := hpieces piece List.mem_cons_self
      cases hread : read (got ++ piece) with
      | done m rest => simp only [readPieces, hread, read_append hread, Scan.verdict]
      | malformed why =>
          have hgot : got ++ piece ≠ [] := by simp [hpiece]
          simp only [readPieces, hread, read_malformed hgot hread, Scan.verdict]
      | incomplete =>
          simp only [readPieces, hread]
          by_cases hlast : pieces = []
          · simp [hlast, readPieces, hread]
          · exact ih (got ++ piece) hlast fun p hp => hpieces p (List.mem_cons_of_mem _ hp)

/-- **Reading is incremental.** A message stays the same message when bytes follow it, and a
defect the same defect; a message takes three bytes or more, no shorter part of it has a verdict,
and the bytes of its frame are enough to read it again. So the pieces in which bytes come in do
not matter to the first verdict on them. -/
theorem read_incremental (b : Bytes) (hb : b ≠ []) :
    (∀ m rest, read b = .done m rest →
      (∀ s, read (b ++ s) = .done m (rest ++ s)) ∧
      b = m.raw ++ rest ∧ frameLength b = .done m.raw.length rest ∧ 3 ≤ m.raw.length ∧
      (∀ k, 1 ≤ k → k < m.raw.length → read (b.take k) = .incomplete) ∧
      read (b.take m.raw.length) = .done m []) ∧
    (∀ why, read b = .malformed why → ∀ s, read (b ++ s) = .malformed why) ∧
    (∀ n rest, frameLength b = .done n rest →
      ∃ m, read b = .done m rest ∧ read (b.take n) = .done m []) ∧
    ∀ pieces, pieces.flatten = b → (∀ p ∈ pieces, p ≠ []) →
      (readPieces [] pieces).verdict = (read b).verdict := by
  have hframe : ∀ m rest, read b = .done m rest → read (b.take m.raw.length) = .done m [] := by
    intro m rest h
    obtain ⟨hm, rfl⟩ := read_done_iff.mp h
    exact read_done_iff.mpr ⟨hm, by simp⟩
  refine ⟨?_, fun why h => read_malformed hb h, ?_, ?_⟩
  · intro m rest h
    obtain ⟨hm, hraw⟩ := read_done_iff.mp h
    refine ⟨read_append h, hraw, ?_, derives_length hm, fun k => read_take h, hframe m rest h⟩
    rw [frameLength_eq, h]
    rfl
  · intro n rest h
    rw [frameLength_eq] at h
    obtain ⟨m, mid, hread, hn⟩ := Scan.andThen_eq_done.mp h
    simp only [Scan.done.injEq] at hn
    obtain ⟨rfl, rfl⟩ := hn
    exact ⟨m, hread, hframe m mid hread⟩
  · rintro pieces rfl hpieces
    refine verdict_readPieces [] pieces ?_ hpieces
    rintro rfl
    exact hb rfl

/-- `PING` and one more byte, in two pieces and with another byte. -/
theorem read_incremental_ping :
    ping.raw ++ [plus] ≠ [] ∧ read (ping.raw ++ [plus] ++ [cr]) = .done ping ([plus] ++ [cr]) ∧
      read ((ping.raw ++ [plus]).take 9) = .incomplete ∧
      (readPieces [] [ping.raw.take 5, ping.raw.drop 5 ++ [plus]]).verdict = some (.ok ping) := by
  have hne : ping.raw ++ [plus] ≠ [] := by decide
  have hread : read (ping.raw ++ [plus]) = .done ping [plus] := rfl
  obtain ⟨hmessage, _, _, hpieces⟩ := read_incremental (ping.raw ++ [plus]) hne
  obtain ⟨hmore, _, _, _, hfewer, _⟩ := hmessage ping [plus] hread
  refine ⟨hne, hmore [cr], hfewer 9 (by decide) (by decide), ?_⟩
  rw [hpieces [ping.raw.take 5, ping.raw.drop 5 ++ [plus]] rfl (by decide), hread]
  rfl

end Message

end ShardProxy.Wire
