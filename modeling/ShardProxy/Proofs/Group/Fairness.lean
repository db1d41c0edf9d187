import Mathlib.Data.List.Rotate
import ShardProxy.Proofs.Group.Selecting

/-!
# Fairness of selection

A run of selections from fresh cursors, with any requests and any servants going up and down.

* `Cursors.run` — the turns of a run;
* `Cursors.walks_iff` — over which lists a request walks;
* `Cursors.cursor_of_walk` — the walks over a list start one after the other, for whatever reason
  there is one;
* `selections_fair` — every request gets a servant of the list that it is sent to if one is live,
  and as many walks over a list as it has servants pick every live one;
* `exists_unfair` — past the end of the range of cursors that need not be so.
-/

namespace ShardProxy.Group

theorem toUInt64_succ (i : Nat) : (i + 1).toUInt64 = i.toUInt64 + 1 := UInt64.ofNat_add i 1

/-- A request, and the servants that are live when it comes. -/
structure Request (α : Type) where
  mutating : Bool
  live : α → Bool

/-- One selection: the cursors that it finds and leaves, and what it picks. -/
structure Turn (α : Type) where
  request : Request α
  before : Cursors
  picked : Option α
  after : Cursors

namespace Turn

variable {α : Type}

/-- The turn leads the cursor of this side on, as a walk over the list does and nothing else. -/
def walks (side : Side) (t : Turn α) : Bool := t.after.cursor side != t.before.cursor side

def isRead (t : Turn α) : Bool := !t.request.mutating

end Turn

namespace Cursors

variable {α : Type} {policy : Policy} {masters replicas : List α} {c : Cursors}
  {requests : List (Request α)} {t : Turn α} {earlier later : List (Turn α)}

/-- The selection for one request. -/
def turn (policy : Policy) (masters replicas : List α) (c : Cursors) (request : Request α) : Turn α :=
  let (picked, after) := c.select request.live masters replicas policy request.mutating
  ⟨request, c, picked, after⟩

/-- The selections for these requests, one after the other. -/
def run (policy : Policy) (masters replicas : List α) (c : Cursors) :
    List (Request α) → List (Turn α)
  | [] => []
  | request :: requests =>
    let t := turn policy masters replicas c request
    t :: run policy masters replicas t.after requests

theorem run_cons (policy : Policy) (masters replicas : List α) (c : Cursors) (request : Request α)
    (requests : List (Request α)) : run policy masters replicas c (request :: requests) =
      turn policy masters replicas c request ::
        run policy masters replicas (turn policy masters replicas c request).after requests := rfl

theorem turn_before (policy : Policy) (masters replicas : List α) (c : Cursors)
    (request : Request α) : (turn policy masters replicas c request).before = c := rfl

theorem turn_after (policy : Policy) (masters replicas : List α) (c : Cursors)
    (request : Request α) : (turn policy masters replicas c request).after =
      (c.select request.live masters replicas policy request.mutating).2 := rfl

/-! ## A turn of a run -/

theorem select_of_mem (ht : t ∈ run policy masters replicas c requests) :
    t.before.select t.request.live masters replicas policy t.request.mutating =
      (t.picked, t.after) := by
  induction requests generalizing c with
  | nil => simp [run] at ht
  | cons request requests ih =>
    rcases List.mem_cons.mp ht with rfl | ht
    · rfl
    · exact ih ht

/-- Where reads are told apart, all of those of the run are counted. -/
theorem reads_eq (hrun : run .readBalance masters replicas c requests = earlier ++ t :: later) :
    t.before.reads = c.reads + (earlier.countP Turn.isRead).toUInt64 := by
  induction earlier generalizing c requests with
  | nil =>
    cases requests with
    | nil => simp [run] at hrun
    | cons request requests =>
      rw [run_cons, List.nil_append, List.cons.injEq] at hrun
      rw [← hrun.1, turn_before]
      simp
  | cons first earlier ih =>
    cases requests with
    | nil => simp [run] at hrun
    | cons request requests =>
      rw [run_cons, List.cons_append, List.cons.injEq] at hrun
      rw [ih hrun.2, turn_after, select_reads, ← hrun.1]
      cases hread : request.mutating with
      | false =>
        have hcounts : (turn .readBalance masters replicas c request).isRead = true := by
          simp [Turn.isRead, turn, hread]
        show c.reads + 1 + _ = _
        rw [List.countP_cons_of_pos hcounts, toUInt64_succ]
        ac_rfl
      | true =>
        have hcounts : ¬ (turn .readBalance masters replicas c request).isRead = true := by
          simp [Turn.isRead, turn, hread]
        rw [List.countP_cons_of_neg hcounts]
        rfl

/-- **The walks over a list start one after the other**, whether it is the one that the requests are
sent to or the one that they fall back on. -/
theorem cursor_of_walk {side : Side} {i : Nat}
    (ht : ((run policy masters replicas c requests).filter (·.walks side))[i]? = some t) :
    t.before.cursor side = c.cursor side + i.toUInt64 := by
  induction requests generalizing c i with
  | nil => simp [run] at ht
  | cons request requests ih =>
    rw [run_cons, List.filter_cons] at ht
    split at ht
    case isTrue hwalks =>
      have hmoved : (turn policy masters replicas c request).after.cursor side = c.cursor side + 1 := by
        rw [turn_after]
        exact (select_of_moved (by simpa [Turn.walks, turn] using hwalks)).1
      cases i with
      | zero =>
        rw [List.getElem?_cons_zero, Option.some.injEq] at ht
        rw [← ht, turn_before]
        simp
      | succ i =>
        rw [ih ht, hmoved, toUInt64_succ]
        ac_rfl
    case isFalse hstays =>
      have hstays : (turn policy masters replicas c request).after.cursor side = c.cursor side := by
        simpa [Turn.walks, turn_before] using hstays
      rw [ih ht, hstays]

/-- There is a walk over the list that the request is sent to, and if nobody there is live over the
other one. Nobody walks over an empty list. -/
theorem walks_iff {side : Side} (ht : t ∈ run policy masters replicas c requests)
    (hwhole : Whole ((t.before.target policy t.request.mutating).choose masters replicas).length
      (t.before.cursor (t.before.target policy t.request.mutating))) :
    t.walks side = true ↔ side.choose masters replicas ≠ [] ∧
      (side = t.before.target policy t.request.mutating ∨
        ∀ s ∈ (t.before.target policy t.request.mutating).choose masters replicas,
          t.request.live s = false) := by
  have hafter : (t.before.select t.request.live masters replicas policy t.request.mutating).2 =
      t.after := congrArg Prod.snd (select_of_mem ht)
  rw [← firstLive_eq_none_iff_dead hwhole, ← select_moved_iff, hafter]
  simp [Turn.walks]

theorem picked_of_walk {side : Side} {s : α} (ht : t ∈ run policy masters replicas c requests)
    (hwalks : t.walks side = true)
    (hfound : firstLive t.request.live (side.choose masters replicas) (t.before.cursor side) = some s) :
    t.picked = some s := by
  have hselect := select_of_mem ht
  have hmoved : (t.before.select t.request.live masters replicas policy t.request.mutating).2.cursor
      side ≠ t.before.cursor side := by
    rw [hselect]
    simpa [Turn.walks] using hwalks
  have hpicked := (select_of_moved hmoved).2 s hfound
  rwa [hselect] at hpicked

/-- In a run from fresh cursors, the list that a request is sent to depends on the requests before it
as the policy has it. -/
theorem target_eq (hrun : run policy masters replicas {} requests = earlier ++ t :: later) :
    t.before.target policy t.request.mutating =
      targeted policy t.request.mutating ((earlier ++ [t]).countP Turn.isRead) := by
  cases policy with
  | masterOnly => rfl
  | readBalance =>
    have hreads := reads_eq hrun
    cases hread : t.request.mutating with
    | true => rfl
    | false =>
      have hcounts : Turn.isRead t = true := by simp [Turn.isRead, hread]
      refine targeted_congr ?_
      show (t.before.reads + 1).toNat % 2 = _
      rw [hreads, List.countP_append, List.countP_singleton, if_pos hcounts, UInt64.toNat_add,
        UInt64.toNat_add, Nat.toUInt64, UInt64.toNat_ofNat']
      show ((0 + _) % 2 ^ 64 + 1) % 2 ^ 64 % 2 = _
      omega

end Cursors

/-! ## As many walks as servants -/

/-- Walks of a run over one list, with no other one between them, from this cursor on. -/
structure Stretch {α : Type} (run : List (Turn α)) (side : Side) (start : UInt64)
    (window : List (Turn α)) : Prop where
  mem : ∀ t ∈ window, t ∈ run ∧ t.walks side = true
  cursor : ∀ (i : Nat) (t : Turn α), window[i]? = some t →
    t.before.cursor side = start + i.toUInt64

namespace Stretch

variable {α : Type} {policy : Policy} {masters replicas : List α} {c : Cursors}
  {requests : List (Request α)} {side : Side} {start : UInt64} {window : List (Turn α)}
  {live : α → Bool}

theorem of_infix
    (h : window <:+: (Cursors.run policy masters replicas c requests).filter (·.walks side)) :
    ∃ start, Stretch (Cursors.run policy masters replicas c requests) side start window := by
  have hsubset := h.subset
  obtain ⟨before, after, hsplit⟩ := h
  refine ⟨c.cursor side + before.length.toUInt64, fun t ht => List.mem_filter.mp (hsubset ht),
    fun i t ht => ?_⟩
  have hi : i < window.length := (List.getElem?_eq_some_iff.mp ht).1
  have hat : ((Cursors.run policy masters replicas c requests).filter
      (·.walks side))[before.length + i]? = some t := by
    rw [← hsplit, List.append_assoc, List.getElem?_append_right (Nat.le_add_right _ _),
      Nat.add_sub_cancel_left, List.getElem?_append_left hi, ht]
  rw [Cursors.cursor_of_walk hat, Nat.toUInt64, UInt64.ofNat_add, UInt64.add_assoc]

/-- The servants that these walks ask first are those that one walk comes by. -/
theorem picked_at_stop
    (h : Stretch (Cursors.run policy masters replicas c requests) side start window)
    {i : Nat} {t : Turn α} {s : α} (ht : window[i]? = some t)
    (hat : (side.choose masters replicas)[stopAt (side.choose masters replicas).length start i]? =
      some s)
    (hlive : t.request.live s = true) : t.picked = some s := by
  have hmem := h.mem t (List.mem_of_getElem? ht)
  refine Cursors.picked_of_walk hmem.1 hmem.2 (firstLive_of_first ?_ hlive)
  rw [h.cursor i t ht]
  exact hat

section

variable (h : Stretch (Cursors.run policy masters replicas c requests) side start window)
  (hlength : window.length = (side.choose masters replicas).length)
  (hfixed : ∀ t ∈ window, ∀ s ∈ side.choose masters replicas, t.request.live s = live s)
include h hlength

theorem whole (hearly : ∀ t ∈ Cursors.run policy masters replicas c requests,
    (t.before.cursor side).toNat + (side.choose masters replicas).length ≤ 2 ^ 64) :
    Whole (side.choose masters replicas).length start := by
  cases hwindow : window with
  | nil =>
    rw [hwindow] at hlength
    exact .inl (by rw [← hlength]; exact Nat.le_of_lt start.toNat_lt)
  | cons t rest =>
    have hfirst : window[0]? = some t := by rw [hwindow]; rfl
    have hbefore : t.before.cursor side = start := by
      rw [h.cursor 0 t hfirst]
      simp
    rw [← hbefore]
    exact .inl (hearly t (h.mem t (List.mem_of_getElem? hfirst)).1)

include hfixed

theorem picks_live (hwhole : Whole (side.choose masters replicas).length start) {s : α}
    (hs : s ∈ side.choose masters replicas) (hlive : live s = true) :
    ∃ t ∈ window, t.picked = some s := by
  obtain ⟨i, hi, hat⟩ := List.getElem_of_mem hs
  obtain ⟨offset, hoffset, hstop⟩ := stops_everywhere_iff.mpr hwhole i hi
  have hturn : window[offset]? = some window[offset] := List.getElem?_eq_getElem (by omega)
  have hmem := List.mem_of_getElem? hturn
  refine ⟨_, hmem, h.picked_at_stop hturn ?_ ((hfixed _ hmem s hs).trans hlive)⟩
  rw [hstop, List.getElem?_eq_getElem hi, hat]

/-- Where all are live, the servants are picked in their order, from some one of them on. -/
theorem picks_rotated (hwhole : Whole (side.choose masters replicas).length start)
    (hlive : ∀ s ∈ side.choose masters replicas, live s = true) :
    window.map (·.picked) = ((side.choose masters replicas).rotate start.toNat).map some := by
  refine List.ext_getElem (by simp [hlength]) fun i hi _ => ?_
  rw [List.length_map] at hi
  have hturn : window[i]? = some window[i] := List.getElem?_eq_getElem hi
  rw [hlength] at hi
  have hplace : stopAt (side.choose masters replicas).length start i =
      (i + start.toNat) % (side.choose masters replicas).length := by
    rw [hwhole.stopAt_eq hi, Nat.add_comm]
  have hat := List.getElem?_eq_getElem (Nat.mod_lt (i + start.toNat) (Nat.zero_lt_of_lt hi))
  have hs := List.mem_of_getElem? hat
  have hpicked := h.picked_at_stop hturn (by rw [hplace]; exact hat)
    ((hfixed _ (List.mem_of_getElem? hturn) _ hs).trans (hlive _ hs))
  rw [List.getElem_map, List.getElem_map, List.getElem_rotate, hpicked]

end

end Stretch

/-- **Selection is fair and follows the policy.** A request gets a servant of the list that the
policy sends it to unless nobody there is live; only then does it walk over the other list as well.
Any walks over a list that follow one another, and are as many as it has servants, pick every servant
that is live throughout, and each exactly once if all are. -/
theorem selections_fair {α : Type} (policy : Policy) (masters replicas : List α)
    (requests : List (Request α))
    (hearly : ∀ t ∈ Cursors.run policy masters replicas {} requests, ∀ side : Side,
      (t.before.cursor side).toNat + (side.choose masters replicas).length ≤ 2 ^ 64) :
    (∀ earlier t later, Cursors.run policy masters replicas {} requests = earlier ++ t :: later →
      let target := targeted policy t.request.mutating ((earlier ++ [t]).countP Turn.isRead)
      Picked t.request.live (target.choose masters replicas) (target.other.choose masters replicas)
        t.picked ∧
      ∀ side : Side, t.walks side = true ↔ side.choose masters replicas ≠ [] ∧
        (side = target ∨ ∀ s ∈ target.choose masters replicas, t.request.live s = false)) ∧
    ∀ (side : Side) (live : α → Bool) (window : List (Turn α)),
      window <:+: (Cursors.run policy masters replicas {} requests).filter (·.walks side) →
      window.length = (side.choose masters replicas).length →
      (∀ t ∈ window, ∀ s ∈ side.choose masters replicas, t.request.live s = live s) →
      (∀ s ∈ side.choose masters replicas, live s = true → ∃ t ∈ window, t.picked = some s) ∧
      ((∀ s ∈ side.choose masters replicas, live s = true) →
        (window.map (·.picked)).Perm ((side.choose masters replicas).map some)) := by
  constructor
  · intro earlier t later hrun target
    have ht : t ∈ Cursors.run policy masters replicas {} requests := by simp [hrun]
    have hwhole : ∀ side : Side, Whole (side.choose masters replicas).length (t.before.cursor side) :=
      fun side => .inl (hearly t ht side)
    have htarget : t.before.target policy t.request.mutating = target := Cursors.target_eq hrun
    constructor
    · have hpicked := Cursors.picked t.request.live hwhole policy t.request.mutating
      rwa [Cursors.select_of_mem ht, htarget] at hpicked
    · intro side
      rw [Cursors.walks_iff ht (hwhole _), htarget]
  · intro side live window hwindow hlength hfixed
    obtain ⟨start, hstretch⟩ := Stretch.of_infix hwindow
    have hwhole := hstretch.whole hlength fun t ht => hearly t ht side
    constructor
    · intro s hs hlive
      exact hstretch.picks_live hlength hfixed hwhole hs hlive
    · intro hlive
      rw [hstretch.picks_rotated hlength hfixed hwhole hlive]
      exact (List.rotate_perm _ _).map some

/-- Two masters and a dead replica: the second read falls back on the masters, and with the write after
it comes by both of them. -/
theorem selections_fair_fallback :
    let turns := Cursors.run .readBalance [0, 1] [2] {}
      [⟨false, (· != 2)⟩, ⟨false, (· != 2)⟩, ⟨true, (· != 2)⟩]
    (∀ t ∈ turns, ∀ side : Side,
      (t.before.cursor side).toNat + (side.choose [0, 1] [2]).length ≤ 2 ^ 64) ∧
    turns.drop 1 <:+: turns.filter (·.walks .masters) ∧
    (∃ t, turns[1]? = some t ∧ Picked (· != 2) [2] [0, 1] t.picked) ∧
    ((turns.drop 1).map (·.picked)).Perm [some 0, some 1] := by
  intro turns
  have hearly : ∀ t ∈ turns, ∀ side : Side,
      (t.before.cursor side).toNat + (side.choose [0, 1] [2]).length ≤ 2 ^ 64 := by
    have hboth : ∀ t ∈ turns, t.before.masters.toNat + 2 ≤ 2 ^ 64 ∧
        t.before.replicas.toNat + 1 ≤ 2 ^ 64 := by decide
    intro t ht side
    cases side with
    | masters => exact (hboth t ht).1
    | replicas => exact (hboth t ht).2
  have hfair := selections_fair .readBalance [0, 1] [2] _ hearly
  have hwindow : turns.drop 1 <:+: turns.filter (·.walks .masters) := ⟨turns.take 1, [], rfl⟩
  have hsecond := (hfair.1 (turns.take 1) _ (turns.drop 2) rfl).1
  have htarget : targeted .readBalance false ((turns.take 2).countP Turn.isRead) = .replicas := by
    decide
  refine ⟨hearly, hwindow, ⟨_, rfl, ?_⟩, ?_⟩
  · change Picked _ ((targeted .readBalance false ((turns.take 2).countP Turn.isRead)).choose _ _)
      ((targeted .readBalance false ((turns.take 2).countP Turn.isRead)).other.choose _ _) _ at hsecond
    rw [htarget] at hsecond
    exact hsecond
  · exact (hfair.2 .masters (· != 2) _ hwindow rfl (by decide)).2 (by decide)

/-! ## Past the end of the range of cursors -/

namespace Cursors

variable {α : Type} {masters : List α} {request : Request α}

/-- A row of writes leads the cursor of the masters on, one by one. -/
theorem exists_turn_at (policy : Policy) (replicas : List α) (hsome : masters ≠ [])
    (hwrite : request.mutating = true) (n : Nat) (c : Cursors) :
    ∃ t ∈ run policy masters replicas c (List.replicate (n + 1) request),
      t.request = request ∧ t.before.cursor .masters = c.cursor .masters + n.toUInt64 := by
  induction n generalizing c with
  | zero => exact ⟨_, List.mem_cons_self, rfl, by simp [turn_before]⟩
  | succ n ih =>
    obtain ⟨t, ht, hrequest, hcursor⟩ := ih (turn policy masters replicas c request).after
    refine ⟨t, List.mem_cons_of_mem _ ht, hrequest, ?_⟩
    have htarget : c.target policy request.mutating = .masters := by
      rw [hwrite]
      cases policy <;> rfl
    have hmoved : (turn policy masters replicas c request).after.cursor .masters =
        c.cursor .masters + 1 := by
      rw [turn_after, select_cursor, htarget]
      simp [Side.choose, hsome]
    rw [hcursor, hmoved, toUInt64_succ]
    ac_rfl

end Cursors

/-- **Fairness ends with the range of cursors**, for every number of masters that does not divide it:
some run comes to leave out the only one that is live. -/
theorem exists_unfair {α : Type} [DecidableEq α] (policy : Policy) {masters : List α}
    (hnodup : masters.Nodup) (hsome : masters ≠ []) (hdiv : ¬ masters.length ∣ 2 ^ 64) :
    ∃ requests, ∃ t ∈ Cursors.run policy masters [] {} requests,
      (∃ s ∈ masters, t.request.live s = true) ∧ t.picked = none := by
  have hlong : 2 ≤ masters.length := by
    have hpos : 0 < masters.length := List.length_pos_iff.mpr hsome
    have hone : masters.length ≠ 1 := fun hone => hdiv (hone ▸ Nat.one_dvd _)
    omega
  have hpasses : ¬ Whole masters.length (2 ^ 64 - 1 : Nat).toUInt64 := by
    rintro (hbefore | hround)
    · have hlast : ((2 ^ 64 - 1 : Nat).toUInt64).toNat = 2 ^ 64 - 1 := by decide
      omega
    · exact hdiv hround
  obtain ⟨i, hi, hmissed⟩ := exists_missed hpasses
  let request : Request α := ⟨true, (· == masters[i])⟩
  have hwrite : request.mutating = true := rfl
  obtain ⟨t, ht, hrequest, hcursor⟩ := Cursors.exists_turn_at policy [] hsome hwrite (2 ^ 64 - 1) {}
  refine ⟨_, t, ht, ⟨masters[i], List.getElem_mem hi, by simp [hrequest, request]⟩, ?_⟩
  have hlast : t.before.cursor .masters = (2 ^ 64 - 1 : Nat).toUInt64 := by
    rw [hcursor]
    exact UInt64.zero_add _
  have hpicked := congrArg Prod.fst (Cursors.select_of_mem ht)
  have htarget : t.before.target policy true = .masters := by cases policy <;> rfl
  rw [Cursors.select_fst, hrequest, htarget, hlast] at hpicked
  exact hpicked.symm.trans (congrArg (Option.or · none) (firstLive_of_missed hnodup hi hmissed))

end ShardProxy.Group
