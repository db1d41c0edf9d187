import Mathlib
import ShardProxy.Net.Script
import ShardProxy.Net.Window

/-!
# Streams read and written in parts

What one read and one write do to a scripted stream, said of the bytes alone:

* `inbound` — the bytes that are still to be read, however they are cut;
* `Script.read_cases` — a read takes some of them, at least one, or finds their end;
* `Script.write_cases` — a write is accepted whole, or a part of it is and it fails;
* `Script.delivered` — the bytes that come in at all, on a stream whose reads may fail.
-/

namespace ShardProxy.Net

/-- A window always has room for one byte more. -/
theorem Window.room_pos (w : Window) (buffered : Nat) : 0 < w.room buffered := by
  unfold Window.room Window.makeRoom Window.increment
  simp only
  split
  · omega
  · split
    · simp only
      omega
    · split
      · simp only [Window.ofSize]
        omega
      · simp only
        omega

namespace Script

/-- The stream yields pieces and then ends. -/
def ofPieces (pieces : List Bytes) (writeLimit failAfter : Option Nat) : Script :=
  { reads := pieces.map .data, writeLimit, failAfter }

/-- No read fails, and none finds the end before everything was read. -/
def Steady (s : Script) : Prop :=
  ∃ pieces : List Bytes, s.reads = pieces.map .data ∧ ∀ p ∈ pieces, p ≠ []

/-- The bytes that are still to be read. -/
def inbound (s : Script) : Bytes :=
  s.reads.flatMap fun
    | .data b => b
    | .fail _ => []

/-- Everything that was written. -/
def written (s : Script) : Bytes := s.out.flatten

/-- Up to `n` bytes in all are accepted. -/
def Accepts (s : Script) (n : Nat) : Prop :=
  s.writeLimit ≠ some 0 ∧ ∀ limit ∈ s.failAfter, n ≤ limit

theorem Accepts.mono {s : Script} {k n : Nat} (h : s.Accepts n) (hk : k ≤ n) : s.Accepts k :=
  ⟨h.1, fun limit hlimit => Nat.le_trans hk (h.2 limit hlimit)⟩

theorem readsLeft_pos (s : Script) : 1 ≤ s.readsLeft := by
  unfold readsLeft
  cases s.reads with
  | nil => exact Nat.le_refl 1
  | cons r rest => cases r <;> exact Nat.le_add_left 1 _

theorem readsLeft_data {s : Script} {b : Bytes} {rest : List ScriptItem}
    (h : s.reads = .data b :: rest) :
    s.readsLeft = { s with reads := rest }.readsLeft + b.length + 1 := by
  simp [readsLeft, h]

/-- **A read of a steady stream** takes some of the bytes that are left, or finds that there are
none. Nothing else changes, and each read brings the end nearer. -/
theorem read_cases {s : Script} (hs : s.Steady) {room : Nat} (hroom : 0 < room) :
    (s.inbound = [] ∧ s.read room = (.ended, s)) ∨
      ∃ b s', s.read room = (.bytes b, s') ∧ s.inbound = b ++ s'.inbound ∧ s'.Steady ∧
        s'.written = s.written ∧ s'.accepted = s.accepted ∧ s'.writeLimit = s.writeLimit ∧
        s'.failAfter = s.failAfter ∧ s'.readsLeft < s.readsLeft := by
  obtain ⟨pieces, hreads, hne⟩ := hs
  cases pieces with
  | nil =>
      refine .inl ⟨by simp [inbound, hreads], ?_⟩
      simp [read, hreads]
  | cons p pieces =>
      have hp : p ≠ [] := hne p List.mem_cons_self
      have hrest : ∀ q ∈ pieces, q ≠ [] := fun q hq => hne q (List.mem_cons_of_mem _ hq)
      rw [List.map_cons] at hreads
      by_cases hlong : room < p.length
      · -- a part of the piece
        refine .inr ⟨p.take room, { s with reads := .data (p.drop room) :: pieces.map .data },
          by simp [read, hreads, hlong], ?_, ⟨p.drop room :: pieces, rfl, ?_⟩, rfl, rfl, rfl, rfl,
          ?_⟩
        · simp [inbound, hreads, ← List.append_assoc]
        · intro q hq
          rcases List.mem_cons.mp hq with rfl | hq
          · simpa using hlong
          · exact hrest q hq
        · rw [readsLeft_data hreads, readsLeft_data rfl, List.length_drop]
          simp only
          omega
      · -- the whole piece
        refine .inr ⟨p,
          { s with reads := pieces.map .data, log := s.log ++ [s.current], current := [] },
          by simp [read, hreads, hlong, hp], ?_, ⟨pieces, rfl, hrest⟩, ?_, rfl, rfl, rfl, ?_⟩
        · simp [inbound, hreads]
        · simp [written, out]
        · rw [readsLeft_data hreads]
          simp only [readsLeft]
          omega

/-- How many of some bytes a write accepts. -/
def fits (s : Script) (b : Bytes) : Nat :=
  if s.writeLimit == some 0 then 0 else min b.length (s.allowance.getD b.length)

theorem fits_of_accepts {s : Script} {b : Bytes} (h : s.Accepts (s.accepted + b.length)) :
    s.fits b = b.length := by
  obtain ⟨hlimit, hfail⟩ := h
  unfold fits
  rw [if_neg (by simpa using hlimit)]
  cases hf : s.failAfter with
  | none => simp [allowance, hf]
  | some limit =>
      have hle := hfail limit hf
      simp only [allowance, hf, Option.map_some, Option.getD_some]
      omega

/-- The stream after a write. -/
def afterWrite (s : Script) (b : Bytes) : Script :=
  { s with accepted := s.accepted + s.fits b, current := s.current ++ b.take (s.fits b) }

theorem written_afterWrite (s : Script) (b : Bytes) :
    (s.afterWrite b).written = s.written ++ b.take (s.fits b) := by
  simp [written, out, afterWrite]

theorem write_eq (s : Script) (b : Bytes) :
    s.write b =
      (if s.fits b == b.length then none
        else if s.writeLimit == some 0 && s.allowance != some 0 then
          some "failed to write whole buffer"
        else some "write failed", s.afterWrite b) := rfl

theorem write_of_fits {s : Script} {b : Bytes} (h : s.fits b = b.length) :
    s.write b = (none, s.afterWrite b) := by
  rw [write_eq, if_pos (by simpa using h)]

theorem write_of_not_fits {s : Script} {b : Bytes} (h : s.fits b ≠ b.length) :
    ∃ text, s.write b = (some text, s.afterWrite b) := by
  rw [write_eq, if_neg (by simpa using h)]
  split <;> exact ⟨_, rfl⟩

/-- **A write** is accepted whole, or it fails after a part of it; and it does not fail while the
stream accepts that many bytes. -/
theorem write_cases {s : Script} (hs : s.accepted = s.written.length) (b : Bytes) :
    (∃ s', s.write b = (none, s') ∧ s'.written = s.written ++ b ∧
      s'.accepted = s'.written.length ∧ s'.reads = s.reads ∧ s'.writeLimit = s.writeLimit ∧
      s'.failAfter = s.failAfter) ∨
    (∃ text s', s.write b = (some text, s') ∧ s'.written <+: s.written ++ b ∧
      ¬ s.Accepts (s.written ++ b).length) := by
  by_cases hfits : s.fits b = b.length
  · have hwritten : (s.afterWrite b).written = s.written ++ b := by
      rw [written_afterWrite, hfits, List.take_length]
    refine .inl ⟨s.afterWrite b, write_of_fits hfits, hwritten, ?_, rfl, rfl, rfl⟩
    rw [hwritten, List.length_append, ← hs, ← hfits]
    rfl
  · obtain ⟨text, htext⟩ := write_of_not_fits hfits
    refine .inr ⟨text, s.afterWrite b, htext, ?_, fun haccepts => hfits (fits_of_accepts ?_)⟩
    · rw [written_afterWrite]
      exact (List.prefix_append_right_inj s.written).mpr (List.take_prefix _ b)
    · rwa [List.length_append, ← hs] at haccepts

/-! ## Streams whose reads may fail -/

/-- The bytes before the first item that ends the stream. -/
def deliveredOf : List ScriptItem → Bytes
  | [] => []
  | .fail _ :: _ => []
  | .data b :: rest => if b.isEmpty then [] else b ++ deliveredOf rest

/-- The bytes that a reader comes to see, however they are cut. -/
def delivered (s : Script) : Bytes := deliveredOf s.reads

theorem delivered_of_read {s s' : Script} {room : Nat} {b : Bytes}
    (h : s.read room = (.bytes b, s')) : s.delivered = b ++ s'.delivered := by
  unfold read at h
  unfold delivered
  split at h
  · cases h
  · cases h
  · rename_i piece rest hreads
    rw [hreads]
    split at h
    · rename_i hlong
      cases h
      have hpiece : piece.isEmpty = false := by
        rw [List.isEmpty_eq_false_iff]
        rintro rfl
        exact absurd hlong (Nat.not_lt_zero _)
      have hleft : (piece.drop room).isEmpty = false := by
        rw [List.isEmpty_eq_false_iff, Ne, List.drop_eq_nil_iff, Nat.not_le]
        exact hlong
      simp only [deliveredOf, hpiece, hleft, Bool.false_eq_true, if_false]
      rw [← List.append_assoc, List.take_append_drop]
    · dsimp only at h
      split at h
      · cases h
      · rename_i hpiece
        cases h
        simp only [deliveredOf, if_neg hpiece]

end Script

end ShardProxy.Net
