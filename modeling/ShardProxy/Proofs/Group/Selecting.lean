import ShardProxy.Proofs.Group.Walking

/-!
# What a selection picks

A selection walks over the list that its policy sends it to, and if nobody there is live over the
other one. Each of these walks leads that list's cursor on by one.

* `targeted` — the list that a request is sent to;
* `select_fst`, `select_cursor` — what is picked, and which cursors are led on;
* `picked` — between whole walks a request gets a live servant of the list that it is sent to, and
  one of the other list only if there is none.
-/

namespace ShardProxy.Group

/-- One of the two lists of a group. -/
inductive Side where
  | masters | replicas
  deriving DecidableEq, Repr

namespace Side

def other : Side → Side
  | masters => replicas
  | replicas => masters

/-- What belongs to this side. -/
def choose {β : Type} (side : Side) (ofMasters ofReplicas : β) : β :=
  match side with
  | masters => ofMasters
  | replicas => ofReplicas

theorem eq_or_other (side x : Side) : x = side ∨ x = side.other := by
  cases side <;> cases x <;> simp [other]

section

variable {α : Type} {masters replicas : List α} {s : α}

/-- The list that is asked first and the other one are the two lists. -/
theorem choose_perm (side : Side) :
    (side.choose masters replicas ++ side.other.choose masters replicas).Perm
      (masters ++ replicas) := by
  cases side with
  | masters => exact .refl _
  | replicas => exact List.perm_append_comm

theorem mem_choose (side : Side) :
    s ∈ side.choose masters replicas ++ side.other.choose masters replicas ↔
      s ∈ masters ++ replicas :=
  side.choose_perm.mem_iff

theorem nodup_choose (side : Side) :
    (side.choose masters replicas ++ side.other.choose masters replicas).Nodup ↔
      (masters ++ replicas).Nodup :=
  side.choose_perm.nodup_iff

end

end Side

/-- The list that a request is sent to, after so many reads, itself among them if it is one. -/
def targeted (policy : Policy) (mutating : Bool) (reads : Nat) : Side :=
  match policy with
  | .masterOnly => .masters
  | .readBalance => if mutating ∨ reads % 2 = 1 then .masters else .replicas

/-- Only the parity of the count matters, which the end of its range keeps. -/
theorem targeted_congr {policy : Policy} {mutating : Bool} {reads reads' : Nat}
    (h : reads % 2 = reads' % 2) : targeted policy mutating reads = targeted policy mutating reads' := by
  unfold targeted
  rw [h]

/-- What may be picked: a live servant of the list that the request is sent to, and one of the other
list only if nobody in the first is live. -/
inductive Picked {α : Type} (live : α → Bool) (target other : List α) : Option α → Prop
  | targeted {s : α} (hmem : s ∈ target) (hlive : live s = true) : Picked live target other (some s)
  | fallback {s : α} (hdead : ∀ t ∈ target, live t = false) (hmem : s ∈ other)
      (hlive : live s = true) : Picked live target other (some s)
  | nobody (hdead : ∀ t ∈ target ++ other, live t = false) : Picked live target other none

variable {α : Type} {live : α → Bool} {masters replicas servants : List α} {s : α}

theorem even_iff (count : UInt64) : count % 2 = 0 ↔ ¬ count.toNat % 2 = 1 := by
  rw [← UInt64.toNat_inj, UInt64.toNat_mod]
  simp

theorem walk_eq (live : α → Bool) (servants : List α) (cursor : UInt64) :
    walk live servants cursor =
      (firstLive live servants cursor, if servants.isEmpty then cursor else cursor + 1) := by
  cases servants with
  | nil => rfl
  | cons s servants => rfl

/-! ## Between whole walks -/

section

variable {target other : List α}

theorem firstLive_eq_none_iff_dead {cursor : UInt64} (hwhole : Whole servants.length cursor) :
    firstLive live servants cursor = none ↔ ∀ t ∈ servants, live t = false := by
  constructor
  · intro hnone t ht
    by_contra hlive
    obtain ⟨s, hfound⟩ := (exists_firstLive_iff hwhole).mpr ⟨t, ht, by simpa using hlive⟩
    simp [hnone] at hfound
  · intro hdead
    exact firstLive_of_dead hdead cursor

theorem picked_of_whole {ofTarget ofOther : UInt64} (htarget : Whole target.length ofTarget)
    (hother : Whole other.length ofOther) : Picked live target other
      ((firstLive live target ofTarget).or (firstLive live other ofOther)) := by
  cases hfirst : firstLive live target ofTarget with
  | some s => exact .targeted (mem_of_firstLive hfirst).1 (mem_of_firstLive hfirst).2
  | none =>
    have hdead := (firstLive_eq_none_iff_dead htarget).mp hfirst
    cases hsecond : firstLive live other ofOther with
    | some s => exact .fallback hdead (mem_of_firstLive hsecond).1 (mem_of_firstLive hsecond).2
    | none =>
      refine .nobody fun t ht => ?_
      rcases List.mem_append.mp ht with ht | ht
      · exact hdead t ht
      · exact (firstLive_eq_none_iff_dead hother).mp hsecond t ht

end

namespace Cursors

variable {c : Cursors}

def cursor (c : Cursors) (side : Side) : UInt64 := side.choose c.masters c.replicas

/-- Walks over the list of one side, and if nobody there is live over the other one. -/
def pick (live : α → Bool) (masters replicas : List α) (side : Side) (c : Cursors) :
    Option α × Cursors :=
  match side with
  | .masters => pickMaster live masters replicas c
  | .replicas => pickReplica live masters replicas c

/-- The reads are counted under the one policy that tells them apart. -/
def counted (policy : Policy) (mutating : Bool) (c : Cursors) : Cursors :=
  if policy = .readBalance ∧ mutating = false then { c with reads := c.reads + 1 } else c

section

variable (live) (masters replicas)

theorem pick_fst (side : Side) (c : Cursors) : (c.pick live masters replicas side).1 =
    (firstLive live (side.choose masters replicas) (c.cursor side)).or
      (firstLive live (side.other.choose masters replicas) (c.cursor side.other)) := by
  cases side <;> simp only [pick, pickMaster, pickReplica, walk_eq, cursor, Side.choose, Side.other]
  · cases firstLive live masters c.masters <;> rfl
  · cases firstLive live replicas c.replicas <;> rfl

theorem pick_cursor (side x : Side) (c : Cursors) :
    (c.pick live masters replicas side).2.cursor x =
      if !(x.choose masters replicas).isEmpty && (x == side ||
          (firstLive live (side.choose masters replicas) (c.cursor side)).isNone)
      then c.cursor x + 1 else c.cursor x := by
  cases side with
  | masters =>
    cases hfound : firstLive live masters c.masters <;> cases x <;>
      simp [pick, pickMaster, walk_eq, cursor, Side.choose, hfound]
  | replicas =>
    cases hfound : firstLive live replicas c.replicas <;> cases x <;>
      simp [pick, pickReplica, walk_eq, cursor, Side.choose, hfound]

theorem pick_reads (side : Side) (c : Cursors) :
    (c.pick live masters replicas side).2.reads = c.reads := by
  cases side <;> simp only [pick, pickMaster, pickReplica]
  · split <;> rfl
  · split <;> rfl

theorem select_eq_pick (policy : Policy) (mutating : Bool) (c : Cursors) :
    c.select live masters replicas policy mutating = (c.counted policy mutating).pick live masters
      replicas (targeted policy mutating (c.counted policy mutating).reads.toNat) := by
  cases policy with
  | masterOnly => rfl
  | readBalance =>
    cases mutating with
    | true => rfl
    | false =>
      show (if (c.reads + 1) % 2 = 0 then _ else _) = pick live masters replicas
        (if false = true ∨ (c.reads + 1).toNat % 2 = 1 then .masters else .replicas)
        { c with reads := c.reads + 1 }
      generalize c.reads + 1 = reads
      by_cases hodd : reads.toNat % 2 = 1
      · simp [even_iff, hodd, pick]
      · simp [even_iff, hodd, pick]

/-- The list that a request is sent to. -/
def target (policy : Policy) (mutating : Bool) (c : Cursors) : Side :=
  targeted policy mutating (c.counted policy mutating).reads.toNat

@[simp] theorem counted_cursor (policy : Policy) (mutating : Bool) (c : Cursors) (x : Side) :
    (c.counted policy mutating).cursor x = c.cursor x := by
  unfold counted
  split <;> rfl

theorem select_reads (policy : Policy) (mutating : Bool) (c : Cursors) :
    (c.select live masters replicas policy mutating).2.reads =
      (c.counted policy mutating).reads := by
  rw [select_eq_pick, pick_reads]

/-- **What is picked**: what the first walk finds, or else what the second one does. -/
theorem select_fst (policy : Policy) (mutating : Bool) (c : Cursors) :
    (c.select live masters replicas policy mutating).1 =
      (firstLive live ((c.target policy mutating).choose masters replicas)
        (c.cursor (c.target policy mutating))).or
      (firstLive live ((c.target policy mutating).other.choose masters replicas)
        (c.cursor (c.target policy mutating).other)) := by
  rw [select_eq_pick, pick_fst, counted_cursor, counted_cursor]
  rfl

/-- **Which cursors are led on**: that of the first walk, and if it finds nobody that of the second
one. There is no walk over an empty list. -/
theorem select_cursor (policy : Policy) (mutating : Bool) (c : Cursors) (x : Side) :
    (c.select live masters replicas policy mutating).2.cursor x =
      if !(x.choose masters replicas).isEmpty && (x == c.target policy mutating ||
          (firstLive live ((c.target policy mutating).choose masters replicas)
            (c.cursor (c.target policy mutating))).isNone)
      then c.cursor x + 1 else c.cursor x := by
  rw [select_eq_pick, pick_cursor, counted_cursor, counted_cursor]
  rfl

end

/-- A selection leads those cursors on from which it walks. -/
theorem select_moved_iff {policy : Policy} {mutating : Bool} {c : Cursors} {x : Side} :
    (c.select live masters replicas policy mutating).2.cursor x ≠ c.cursor x ↔
      x.choose masters replicas ≠ [] ∧ (x = c.target policy mutating ∨
        firstLive live ((c.target policy mutating).choose masters replicas)
          (c.cursor (c.target policy mutating)) = none) := by
  rw [select_cursor]
  split
  case isTrue hwalks => simpa using hwalks
  case isFalse hstays => simpa using hstays

/-- A selection that leads a cursor on picks what the walk from there finds. -/
theorem select_of_moved {policy : Policy} {mutating : Bool} {c : Cursors} {x : Side}
    (hmoved : (c.select live masters replicas policy mutating).2.cursor x ≠ c.cursor x) :
    (c.select live masters replicas policy mutating).2.cursor x = c.cursor x + 1 ∧
      ∀ s, firstLive live (x.choose masters replicas) (c.cursor x) = some s →
        (c.select live masters replicas policy mutating).1 = some s := by
  constructor
  · rw [select_cursor] at hmoved ⊢
    split at hmoved
    case isTrue hwalks => exact if_pos hwalks
    case isFalse => exact absurd rfl hmoved
  · intro s hfound
    rw [select_fst]
    rcases (select_moved_iff.mp hmoved).2 with rfl | hnobody
    · simp [hfound]
    · rcases (c.target policy mutating).eq_or_other x with rfl | rfl
      · simp [hfound]
      · simp [hfound, hnobody]

/-- **Between whole walks** a request gets a live servant of the list that it is sent to, and one of
the other list only if there is none. -/
theorem picked (live : α → Bool)
    (hwhole : ∀ x : Side, Whole (x.choose masters replicas).length (c.cursor x)) (policy : Policy)
    (mutating : Bool) :
    Picked live ((c.target policy mutating).choose masters replicas)
      ((c.target policy mutating).other.choose masters replicas)
      (c.select live masters replicas policy mutating).1 := by
  rw [select_fst]
  exact picked_of_whole (hwhole _) (hwhole _)

/-- Wherever the walks start, only a live servant is picked. -/
theorem mem_of_select {policy : Policy} {mutating : Bool}
    (h : (c.select live masters replicas policy mutating).1 = some s) :
    s ∈ masters ++ replicas ∧ live s = true := by
  rw [select_fst, Option.or_eq_some_iff] at h
  rw [← (c.target policy mutating).mem_choose]
  rcases h with hfirst | ⟨-, hsecond⟩
  · exact ⟨List.mem_append_left _ (mem_of_firstLive hfirst).1, (mem_of_firstLive hfirst).2⟩
  · exact ⟨List.mem_append_right _ (mem_of_firstLive hsecond).1, (mem_of_firstLive hsecond).2⟩

/-- Between whole walks somebody is picked if there is a live servant. -/
theorem exists_select_iff (hwhole : ∀ x : Side, Whole (x.choose masters replicas).length (c.cursor x))
    (policy : Policy) (mutating : Bool) :
    (∃ s, (c.select live masters replicas policy mutating).1 = some s) ↔
      ∃ s ∈ masters ++ replicas, live s = true := by
  constructor
  · rintro ⟨s, hs⟩
    exact ⟨s, mem_of_select hs⟩
  · rintro ⟨s, hmem, hlive⟩
    have hpicked := picked live hwhole policy mutating
    generalize (c.select live masters replicas policy mutating).1 = found at hpicked
    cases hpicked with
    | targeted => exact ⟨_, rfl⟩
    | fallback => exact ⟨_, rfl⟩
    | nobody hdead =>
      have hnot := hdead s ((c.target policy mutating).mem_choose.mpr hmem)
      simp [hlive] at hnot

end Cursors

end ShardProxy.Group
