import ShardProxy.Proofs.Backend.Accounts
import ShardProxy.Proofs.Backend.Standing

/-!
# Starting and stopping

A stop makes the servant inactive and tells whatever watches or waits to reconnect. It reaches
neither a start that is under way nor a loop whose pause is over before it listens, nor the rest of
a call that will set off a loop: the connections are still made, and the last of them makes the
servant active. In the same way a start does not ask what became of the servant meanwhile. One that
fails closes the pool, also of a servant that another start has made active; one that succeeds makes
the servant active, also where the pool was closed behind its back. Where starts are made one at a
time, and only of servants that are down, none of this comes about.

* `Standing.Survives`, `Standing.Halted` — what a stop leaves;
* `Servant.stop_outrun` — what alone can outrun it;
* `Standing.Tuned`, `Servant.active_serves` — when a servant that is active can serve.
-/

namespace ShardProxy.Backend

/-- Somebody outside wants the servant started. -/
def Event.isCall : Event → Bool
  | .start _ => true
  | _ => false

/-- The timer of a task that waits goes off before it is told to go on. -/
def timerFirst (t : TaskId) (evs : List Event) : Bool :=
  evs.find? (fun ev => ev == .wake t || ev == .alarm t) == some (.alarm t)

theorem timerFirst_append {t : TaskId} {evs : List Event} (h : timerFirst t evs = true)
    (rest : List Event) : timerFirst t (evs ++ rest) = true := by
  unfold timerFirst at h ⊢
  rw [List.find?_append, beq_iff_eq.mp h]
  exact beq_self_eq_true _

theorem timerFirst_concat {t : TaskId} {evs : List Event} (h : .wake t ∉ evs) :
    timerFirst t (evs ++ [.alarm t]) = true := by
  unfold timerFirst
  rw [List.find?_append, beq_iff_eq]
  cases hfound : evs.find? (fun ev => ev == .wake t || ev == .alarm t) with
  | none => simp
  | some ev =>
      have hmem := List.mem_of_find?_eq_some hfound
      have hkind := List.find?_some hfound
      simp only [Bool.or_eq_true, beq_iff_eq] at hkind
      rcases hkind with rfl | rfl
      · exact absurd hmem h
      · rfl

namespace Role

/-- The second connection of a start is being made. -/
def isLinking : Role → Bool
  | linking _ => true
  | _ => false

def isWatching : Role → Bool
  | watching _ => true
  | _ => false

def isRetrying : Role → Bool
  | retrying _ => true
  | _ => false

variable {r : Role}

theorem isStarting_of_isLinking (h : r.isLinking = true) : r.isStarting = true := by
  cases r with
  | linking => rfl
  | opening | watching | retrying => cases h

theorem isRetrying_of_isStarting (h : r.isStarting = true) : r.isRetrying = false := by
  cases r with
  | opening | linking => rfl
  | watching | retrying => cases h

/-- Those that neither start nor watch wait to reconnect. -/
theorem isRetrying_of_neither (hstarting : r.isStarting = false)
    (hwatching : r.isWatching = false) : r.isRetrying = true := by
  cases r with
  | opening | linking => cases hstarting
  | watching => cases hwatching
  | retrying => rfl

end Role

namespace Standing

/-- Some task starts the servant. -/
def isStarting (σ : Standing) : Bool := σ.roles.any (·.2.isStarting)

/-- No task of this number starts the servant. -/
def IsOver (σ : Standing) (t : TaskId) : Prop := ∀ x ∈ σ.roles, x.1 = t → x.2.isStarting = false

variable {σ σ' : Standing} {ev : Event} {t : TaskId}

theorem isStarting_eq_false : σ.isStarting = false ↔ ∀ x ∈ σ.roles, x.2.isStarting = false := by
  unfold isStarting
  simp

/-- A task that goes on has its start behind it, unless it goes on to start. -/
theorem Within.isOver {active isOpen : Bool} {generation : Nat} {new : TaskId × Role → Prop}
    (h : σ'.Within active isOpen generation fun x => (x ∈ σ.roles ∧ x.1 ≠ t) ∨ new x)
    (hnew : ∀ x, new x → x.2.isStarting = false) : σ'.IsOver t := by
  intro x hx hxt
  rcases h.roles x hx with ⟨-, hne⟩ | hx'
  · exact absurd hxt hne
  · exact hnew x hx'

/-! ## Generations -/

/-- No watch and no loop is of a generation to come. -/
def Dated (σ : Standing) : Prop :=
  ∀ x ∈ σ.roles, ∀ g, x.2.generation? = some g → g ≤ σ.generation

theorem Dated.within {active isOpen : Bool} {may : TaskId × Role → Prop} (h : σ.Dated)
    (hnext : σ'.Within active isOpen σ.generation may)
    (hmay : ∀ x, may x → x ∈ σ.roles ∨ ∀ g, x.2.generation? = some g → g ≤ σ.generation) :
    σ'.Dated := by
  intro x hx g hg
  rw [hnext.generation]
  rcases hmay x (hnext.roles x hx) with hold | hnew
  · exact h x hold g hg
  · exact hnew g hg

theorem Dated.turn (h : σ.Dated) (hturn : Turn σ ev σ') : σ'.Dated := by
  cases hturn with
  | steady hnext => exact h.within hnext fun _ => .inl
  | called hnext =>
      refine h.within hnext ?_
      rintro x (hold | rfl)
      · exact .inl hold
      · exact .inr nofun
  | setOff hnext =>
      refine h.within hnext ?_
      rintro x (hold | rfl)
      · exact .inl hold
      · exact .inr fun g hg => (Option.some.inj hg).ge
  | @retried t g _ hrole hnext =>
      refine h.within hnext ?_
      rintro x (⟨hold, -⟩ | rfl)
      · exact .inl hold
      · exact .inr fun g' hg => h _ hrole g' hg
  | @opened _ t o _ hrole hnext =>
      refine h.within hnext ?_
      rintro x (⟨hold, -⟩ | rfl)
      · exact .inl hold
      · exact .inr fun g hg => h _ hrole g (by cases o <;> exact hg)
  | refused hrole hnext | unlinked hrole hnext =>
      refine h.within hnext ?_
      rintro x (⟨hold, -⟩ | ⟨-, rfl⟩)
      · exact .inl hold
      · exact .inr fun g hg => (Option.some.inj hg).ge
  | linked hrole hnext | lost hrole hnext =>
      refine h.within hnext ?_
      rintro x (⟨hold, -⟩ | rfl)
      · exact .inl hold
      · exact .inr fun g hg => (Option.some.inj hg).ge
  | broken hrole hnext =>
      refine h.within hnext ?_
      rintro x (⟨hold, -⟩ | ⟨rfl, rfl⟩)
      · exact .inl hold
      · exact .inr fun g hg => (Option.some.inj hg).ge
  | stopped hnext =>
      intro x hx g hg
      have hle := h x (hnext.roles x hx) g hg
      rw [hnext.generation]
      omega

/-! ## After a stop -/

/-- A task of a servant that was stopped can make it active with these events: it was starting it
when the stop came, or waited to reconnect and did not hear of the stop before its pause was
over. -/
def Survives (σ : Standing) (evs : List Event) (t : TaskId) : Prop :=
  (∃ r, (t, r) ∈ σ.roles ∧ r.isStarting = true) ∨
    (∃ g, (t, .retrying g) ∈ σ.roles) ∧ timerFirst t evs = true

/-- After a stop and these events the servant is down. Whatever starts it is a survivor, whatever
waits to reconnect has not heard of the stop, and no loop or watch goes on after what it does
now. -/
structure Halted (σ₀ : Standing) (evs : List Event) (σ : Standing) : Prop where
  inactive : σ.active = false
  starting : ∀ x ∈ σ.roles, x.2.isStarting = true → σ₀.Survives evs x.1
  waiting : ∀ x ∈ σ.roles, x.2.isRetrying = true → x ∈ σ₀.roles ∧ .wake x.1 ∉ evs
  stale : ∀ x ∈ σ.roles, ∀ g, x.2.generation? = some g → g < σ.generation

/-- A start ends with its second connection made: the servant is active, or at least, where that
connection has ended already, on the way to become so again. -/
def Outruns (σ σ' : Standing) (t : TaskId) : Prop :=
  (∃ o, (t, .linking o) ∈ σ.roles) ∧ σ'.IsOver t ∧
    (σ'.active = true ∨ ∃ n, (n, .retrying σ'.generation) ∈ σ'.roles)

variable {σ₀ : Standing} {evs : List Event}

theorem Survives.concat (h : σ₀.Survives evs t) (ev : Event) : σ₀.Survives (evs ++ [ev]) t :=
  h.imp_right (And.imp_right (timerFirst_append · [ev]))

/-- The servant stays down by a step after which nothing is new but what a survivor does. -/
theorem Halted.keep (h : Halted σ₀ evs σ) (hdown : σ'.active = false)
    (hgeneration : σ.generation ≤ σ'.generation)
    (hheard : ∀ u g, ev = .wake u → (u, .retrying g) ∈ σ'.roles → g = σ.generation)
    (hroles : ∀ x ∈ σ'.roles, x ∈ σ.roles ∨ x.2.isStarting = true ∧
      σ₀.Survives (evs ++ [ev]) x.1 ∧ ∀ g, x.2.generation? = some g → g < σ.generation) :
    Halted σ₀ (evs ++ [ev]) σ' := by
  refine ⟨hdown, ?_, ?_, ?_⟩
  · intro x hx hstarting
    rcases hroles x hx with hold | ⟨-, hsurvives, -⟩
    · exact (h.starting x hold hstarting).concat ev
    · exact hsurvives
  · intro x hx hretrying
    rcases hroles x hx with hold | ⟨hstarting, -, -⟩
    · obtain ⟨hsame, hunheard⟩ := h.waiting x hold hretrying
      refine ⟨hsame, fun hwake => ?_⟩
      rcases List.mem_append.mp hwake with hbefore | hnow
      · exact hunheard hbefore
      · -- it hears of the stop now, and ends
        obtain ⟨u, r⟩ := x
        cases r with
        | retrying g =>
            have hpresent := hheard u g (List.mem_singleton.mp hnow).symm hx
            exact (h.stale _ hold g rfl).ne hpresent
        | opening | linking | watching => cases hretrying
    · rw [Role.isRetrying_of_isStarting hstarting] at hretrying
      cases hretrying
  · intro x hx g hg
    refine lt_of_lt_of_le ?_ hgeneration
    rcases hroles x hx with hold | ⟨-, -, hstale⟩
    · exact h.stale x hold g hg
    · exact hstale g hg

/-- A servant that was stopped stays down by every step but one, at which a survivor has its second
connection. -/
theorem Halted.turn (h : Halted σ₀ evs σ) (hturn : Turn σ ev σ') (hcall : ev.isCall = false)
    (hpending : ev ≠ .reconnect)
    (hheard : ∀ u g, ev = .wake u → (u, .retrying g) ∈ σ'.roles → g = σ.generation) :
    Halted σ₀ (evs ++ [ev]) σ' ∨ ∃ t, σ₀.Survives evs t ∧ Outruns σ σ' t := by
  cases hturn with
  | steady hnext =>
      exact .inl (h.keep (hnext.active.trans h.inactive) hnext.generation.ge hheard
        fun x hx => .inl (hnext.roles x hx))
  | called hnext => cases hcall
  | setOff hnext => exact absurd rfl hpending
  | @retried t g _ hrole hnext =>
      refine .inl (h.keep (hnext.active.trans h.inactive) hnext.generation.ge hheard ?_)
      intro x hx
      rcases hnext.roles x hx with ⟨hold, -⟩ | rfl
      · exact .inl hold
      · obtain ⟨hwaited, hunheard⟩ := h.waiting _ hrole rfl
        have hsurvives : σ₀.Survives (evs ++ [.alarm t]) t :=
          .inr ⟨⟨g, hwaited⟩, timerFirst_concat hunheard⟩
        exact .inr ⟨rfl, hsurvives, fun g' hg => h.stale _ hrole g' hg⟩
  | @opened _ t o _ hrole hnext =>
      refine .inl (h.keep (hnext.active.trans h.inactive) hnext.generation.ge hheard ?_)
      intro x hx
      rcases hnext.roles x hx with ⟨hold, -⟩ | rfl
      · exact .inl hold
      · refine .inr ⟨rfl, (h.starting _ hrole rfl).concat ev, fun g hg => ?_⟩
        exact h.stale _ hrole g (by cases o <;> exact hg)
  | refused hrole hnext | unlinked hrole hnext =>
      -- a loop that began before the stop does not go on after it
      refine .inl (h.keep (hnext.active.trans h.inactive) hnext.generation.ge hheard ?_)
      intro x hx
      rcases hnext.roles x hx with ⟨hold, -⟩ | ⟨rfl, -⟩
      · exact .inl hold
      · exact absurd (h.stale _ hrole _ rfl) (Nat.lt_irrefl _)
  | linked hrole hnext =>
      refine .inr ⟨_, h.starting _ hrole rfl, ⟨_, hrole⟩, hnext.isOver ?_, .inl hnext.active⟩
      rintro x rfl
      rfl
  | @lost _ t n o _ hrole hnext =>
      by_cases hretrying : (n, .retrying σ.generation) ∈ σ'.roles
      · refine .inr ⟨_, h.starting _ hrole rfl, ⟨_, hrole⟩, hnext.isOver ?_, .inr ⟨n, ?_⟩⟩
        · rintro x rfl
          rfl
        · rw [hnext.generation]
          exact hretrying
      · -- no attempt to reconnect was left
        refine .inl (h.keep hnext.active hnext.generation.ge hheard ?_)
        intro x hx
        rcases hnext.roles x hx with ⟨hold, -⟩ | rfl
        · exact .inl hold
        · exact absurd hx hretrying
  | broken hrole hnext =>
      -- nor does a watch that began before the stop
      refine .inl (h.keep hnext.active hnext.generation.ge hheard ?_)
      intro x hx
      rcases hnext.roles x hx with ⟨hold, -⟩ | ⟨hsame, -⟩
      · exact .inl hold
      · exact absurd hsame (h.stale _ hrole _ rfl).ne
  | stopped hnext =>
      refine .inl (h.keep hnext.active ?_ hheard fun x hx => .inl (hnext.roles x hx))
      rw [hnext.generation]
      exact Nat.le_succ _

/-! ## One start at a time -/

/-- The servant is down, and nobody starts it or watches it still. -/
def isIdle (σ : Standing) : Bool :=
  !σ.active && !σ.isStarting && !(σ.roles.any (·.2.isWatching))

/-- Nobody begins to start a servant that is not idle, and nobody stops one that is being
started. -/
def admits (σ : Standing) : Event → Bool
  | .start _ => σ.isIdle
  | .alarm t => !(σ.roles.any fun x => x.1 == t && x.2.isRetrying) || σ.isIdle
  | .stop => !σ.isStarting
  | _ => true

/-- An active servant has an open pool, and so has one whose second connection is being made. A
servant that is being started is down, and only one task starts it or watches it. -/
structure Tuned (σ : Standing) : Prop where
  serves : σ.active = true → σ.isOpen = true
  opened : ∀ x ∈ σ.roles, x.2.isLinking = true → σ.isOpen = true
  down : ∀ x ∈ σ.roles, x.2.isStarting = true → σ.active = false
  sole : ∀ x ∈ σ.roles, ∀ y ∈ σ.roles, x.2.isRetrying = false → y.2.isRetrying = false → x = y

/-- There may be more loops than before. -/
theorem Tuned.within {may : TaskId × Role → Prop} (h : σ.Tuned)
    (hnext : σ'.Within σ.active σ.isOpen σ.generation may)
    (hmay : ∀ x, may x → x ∈ σ.roles ∨ x.2.isRetrying = true) : σ'.Tuned := by
  have hold : ∀ x ∈ σ'.roles, x.2.isRetrying = false → x ∈ σ.roles := by
    intro x hx hvital
    rcases hmay x (hnext.roles x hx) with hold | hloop
    · exact hold
    · rw [hloop] at hvital
      cases hvital
  refine ⟨?_, ?_, ?_, ?_⟩
  · rw [hnext.active, hnext.isOpen]
    exact h.serves
  · intro x hx hlinking
    have hvital := Role.isRetrying_of_isStarting (Role.isStarting_of_isLinking hlinking)
    rw [hnext.isOpen]
    exact h.opened x (hold x hx hvital) hlinking
  · intro x hx hstarting
    rw [hnext.active]
    exact h.down x (hold x hx (Role.isRetrying_of_isStarting hstarting)) hstarting
  · intro x hx y hy hxvital hyvital
    exact h.sole x (hold x hx hxvital) y (hold y hy hyvital) hxvital hyvital

/-- Beside the loops there is one role at most, and it is in keeping with the flags. -/
theorem tuned_of_alone {y : TaskId × Role}
    (hroles : ∀ x ∈ σ.roles, x.2.isRetrying = true ∨ x = y)
    (hserves : σ.active = true → σ.isOpen = true)
    (hopened : y.2.isLinking = true → σ.isOpen = true)
    (hdown : y.2.isStarting = true → σ.active = false) : σ.Tuned := by
  have halone : ∀ x ∈ σ.roles, x.2.isRetrying = false → x = y := by
    intro x hx hvital
    rcases hroles x hx with hloop | hsame
    · rw [hloop] at hvital
      cases hvital
    · exact hsame
  refine ⟨hserves, ?_, ?_, ?_⟩
  · intro x hx hlinking
    have hvital := Role.isRetrying_of_isStarting (Role.isStarting_of_isLinking hlinking)
    rw [halone x hx hvital] at hlinking
    exact hopened hlinking
  · intro x hx hstarting
    rw [halone x hx (Role.isRetrying_of_isStarting hstarting)] at hstarting
    exact hdown hstarting
  · intro x hx z hz hxvital hzvital
    rw [halone x hx hxvital, halone z hz hzvital]

/-- There are only loops. -/
theorem tuned_of_loops (hroles : ∀ x ∈ σ.roles, x.2.isRetrying = true)
    (hserves : σ.active = true → σ.isOpen = true) : σ.Tuned :=
  tuned_of_alone (y := (0, .retrying 0)) (fun x hx => .inl (hroles x hx)) hserves nofun nofun

/-- An idle servant has no task but loops. -/
theorem loops_of_idle (hidle : σ.isIdle = true) :
    σ.active = false ∧ ∀ x ∈ σ.roles, x.2.isRetrying = true := by
  unfold isIdle at hidle
  simp only [Bool.and_eq_true, Bool.not_eq_true', isStarting_eq_false, List.any_eq_false,
    Bool.not_eq_true] at hidle
  obtain ⟨⟨hdown, hnone⟩, hunwatched⟩ := hidle
  exact ⟨hdown, fun x hx => Role.isRetrying_of_neither (hnone x hx) (hunwatched x hx)⟩

/-- Where one task starts or watches the servant, the others are loops. -/
theorem Tuned.loops_beside (h : σ.Tuned) {r : Role} (hrole : (t, r) ∈ σ.roles)
    (hr : r.isRetrying = false) : ∀ x ∈ σ.roles, x.1 ≠ t → x.2.isRetrying = true := by
  intro x hx hne
  by_contra hvital
  have hsame := h.sole x hx _ hrole (by simpa using hvital) hr
  exact hne (congrArg Prod.fst hsame)

/-- In step with its flags a servant goes on, as long as what happens is admitted. -/
theorem Tuned.turn (h : σ.Tuned) (hturn : Turn σ ev σ') (hadmits : σ.admits ev = true) :
    σ'.Tuned := by
  cases hturn with
  | steady hnext => exact h.within hnext fun _ => .inl
  | setOff hnext =>
      refine h.within hnext ?_
      rintro x (hold | rfl)
      · exact .inl hold
      · exact .inr rfl
  | called hnext =>
      obtain ⟨hdown, hloops⟩ := loops_of_idle hadmits
      refine tuned_of_alone (fun x hx => (hnext.roles x hx).imp_left (hloops x)) ?_ nofun ?_
      · rw [hnext.active, hdown]
        exact nofun
      · exact fun _ => hnext.active.trans hdown
  | @retried t g _ hrole hnext =>
      have hidle : σ.isIdle = true := by
        refine (Bool.or_eq_true_iff.mp hadmits).resolve_left ?_
        rw [Bool.not_eq_true', ← Bool.not_eq_true, not_not]
        exact List.any_eq_true.mpr ⟨_, hrole, by simp [Role.isRetrying]⟩
      obtain ⟨hdown, hloops⟩ := loops_of_idle hidle
      refine tuned_of_alone
        (fun x hx => (hnext.roles x hx).imp_left fun hold => hloops x hold.1) ?_ nofun ?_
      · rw [hnext.active, hdown]
        exact nofun
      · exact fun _ => hnext.active.trans hdown
  | opened hrole hnext =>
      have hloops := h.loops_beside hrole rfl
      refine tuned_of_alone
        (fun x hx => (hnext.roles x hx).imp_left fun hold => hloops x hold.1 hold.2)
        (fun _ => hnext.isOpen) (fun _ => hnext.isOpen) ?_
      exact fun _ => hnext.active.trans (h.down _ hrole rfl)
  | linked hrole hnext =>
      have hloops := h.loops_beside hrole rfl
      refine tuned_of_alone
        (fun x hx => (hnext.roles x hx).imp_left fun hold => hloops x hold.1 hold.2)
        (fun _ => hnext.isOpen.trans (h.opened _ hrole rfl)) nofun nofun
  | refused hrole hnext | unlinked hrole hnext =>
      have hloops := h.loops_beside hrole rfl
      refine tuned_of_loops ?_ ?_
      · intro x hx
        rcases hnext.roles x hx with ⟨hold, hne⟩ | ⟨-, rfl⟩
        · exact hloops x hold hne
        · rfl
      · rw [hnext.active, h.down _ hrole rfl]
        exact nofun
  | lost hrole hnext =>
      have hloops := h.loops_beside hrole rfl
      refine tuned_of_loops ?_ ?_
      · intro x hx
        rcases hnext.roles x hx with ⟨hold, hne⟩ | rfl
        · exact hloops x hold hne
        · rfl
      · rw [hnext.active]
        exact nofun
  | broken hrole hnext =>
      have hloops := h.loops_beside hrole rfl
      refine tuned_of_loops ?_ ?_
      · intro x hx
        rcases hnext.roles x hx with ⟨hold, hne⟩ | ⟨-, rfl⟩
        · exact hloops x hold hne
        · rfl
      · rw [hnext.active]
        exact nofun
  | stopped hnext =>
      have hnone := isStarting_eq_false.mp (by simpa [admits] using hadmits)
      have hunstarted : ∀ x ∈ σ'.roles, x.2.isStarting = false :=
        fun x hx => hnone x (hnext.roles x hx)
      refine ⟨?_, ?_, ?_, ?_⟩
      · rw [hnext.active]
        exact nofun
      · intro x hx hlinking
        cases (Role.isStarting_of_isLinking hlinking).symm.trans (hunstarted x hx)
      · exact fun _ _ _ => hnext.active
      · exact fun x hx y hy => h.sole x (hnext.roles x hx) y (hnext.roles y hy)

/-- A step that leaves an active servant with a closed pool ends a start: one that failed under a
servant that could serve, or one that succeeded with its pool closed. -/
theorem Turn.parted (hturn : Turn σ ev σ') (hserves : σ.active = true → σ.isOpen = true)
    (hactive : σ'.active = true) (hclosed : σ'.isOpen = false) :
    ∃ t, (∃ o, (t, .linking o) ∈ σ.roles) ∧ σ'.IsOver t ∧ σ.active = σ.isOpen := by
  have hsame : σ'.active = σ.active → σ'.isOpen = σ.isOpen → False := by
    intro hsame hopen
    have hserving := hserves (hsame.symm.trans hactive)
    rw [← hopen, hclosed] at hserving
    cases hserving
  cases hturn with
  | steady hnext | called hnext | setOff hnext | retried _ hnext | refused _ hnext =>
      exact (hsame hnext.active hnext.isOpen).elim
  | opened _ hnext => cases hclosed.symm.trans hnext.isOpen
  | lost _ hnext | broken _ hnext | stopped hnext => cases hactive.symm.trans hnext.active
  | linked hrole hnext =>
      have hshut : σ.isOpen = false := hnext.isOpen.symm.trans hclosed
      refine ⟨_, ⟨_, hrole⟩, hnext.isOver ?_, ?_⟩
      · rintro x rfl
        rfl
      · rw [hshut]
        by_contra hup
        have hserving := hserves (by simpa using hup)
        rw [hshut] at hserving
        cases hserving
  | unlinked hrole hnext =>
      have hup : σ.active = true := hnext.active.symm.trans hactive
      refine ⟨_, ⟨_, hrole⟩, hnext.isOver ?_, hup.trans (hserves hup).symm⟩
      rintro x ⟨-, rfl⟩
      rfl

end Standing

namespace Servant

variable {p : Profile} {s : Servant}

/-- What holds before a run and not after it is broken by one of its events. -/
theorem exists_breaking {P : List Event → Prop} (evs : List Event) (h : P []) (hend : ¬ P evs) :
    ∃ before ev rest, evs = before ++ ev :: rest ∧ P before ∧ ¬ P (before ++ [ev]) := by
  induction evs using List.reverseRecOn with
  | nil => exact absurd h hend
  | append_singleton evs ev ih =>
      by_cases hbefore : P evs
      · exact ⟨evs, ev, [], rfl, hbefore, hend⟩
      · obtain ⟨before, ev', rest, rfl, hkept, hbroken⟩ := ih hbefore
        exact ⟨before, ev', rest ++ [ev], by simp, hkept, hbroken⟩

theorem Reachable.dated (h : Reachable p s) : s.standing.Dated := by
  induction h with
  | initial => exact nofun
  | event ev _ ih => exact ih.turn (Standing.turn_step _ ev)

theorem Reachable.halted (h : Reachable p s) :
    Standing.Halted s.standing [] (s.step .stop).1.standing := by
  have hstopped : (s.step .stop).1.standing.Within false false (s.standing.generation + 1)
      (· ∈ s.standing.roles) := (Standing.Within.self s.standing).stop
  refine ⟨hstopped.active, ?_, ?_, ?_⟩
  · exact fun x hx hstarting => .inl ⟨x.2, hstopped.roles x hx, hstarting⟩
  · exact fun x hx _ => ⟨hstopped.roles x hx, List.not_mem_nil⟩
  · intro x hx g hg
    have hle := h.dated x (hstopped.roles x hx) g hg
    rw [hstopped.generation]
    omega

/-- With one of these events after a stop, the rest of a call sets off a loop, or a start that has
survived the stop ends with its connections made. Until then the servant was down. -/
def Outrun (s : Servant) (evs : List Event) : Prop :=
  ∃ before ev rest, evs = before ++ ev :: rest ∧
    ((s.step .stop).1.after before).active = false ∧
    (ev = .reconnect ∨ ∃ t, s.standing.Survives before t ∧
      Standing.Outruns ((s.step .stop).1.after before).standing
        (((s.step .stop).1.after before).step ev).1.standing t)

/-- **What alone outruns a stop.** Let anything happen after it, in any order, until somebody
outside calls for the servant again. If no start was in progress at the stop, nor a call that has
yet to set off a loop, and every loop that waited hears of it before its timer goes off, then the
servant stays inactive. If it is active all the same, then a call has set off a loop, or a start
has come to its end that was in progress at the stop, or that a loop began without having heard of
it; and before that the servant was inactive. -/
theorem stop_outrun (h : Reachable p s) (evs : List Event)
    (hcalls : ∀ ev ∈ evs, ev.isCall = false) :
    (s.standing.isStarting = false → .reconnect ∉ evs →
      (∀ x ∈ s.standing.roles, x.2.isRetrying = true → timerFirst x.1 evs = false) →
      ((s.step .stop).1.after evs).active = false) ∧
    (((s.step .stop).1.after evs).active = true → s.Outrun evs) := by
  have houtrun : ((s.step .stop).1.after evs).active = true → s.Outrun evs := by
    intro hactive
    have hend : ¬ Standing.Halted s.standing evs ((s.step .stop).1.after evs).standing := by
      intro hhalted
      cases hactive.symm.trans hhalted.inactive
    obtain ⟨before, ev, rest, rfl, hkept, hbroken⟩ := exists_breaking
      (P := fun evs => Standing.Halted s.standing evs ((s.step .stop).1.after evs).standing)
      evs h.halted hend
    refine ⟨before, ev, rest, rfl, hkept.inactive, or_iff_not_imp_left.mpr fun hpending => ?_⟩
    have hcall := hcalls ev (List.mem_append_right _ List.mem_cons_self)
    have hnumbered := ((h.event .stop).after before).ledger.lined.numbered
    rw [after_concat] at hbroken
    refine (hkept.turn (Standing.turn_step _ ev) hcall hpending ?_).resolve_left hbroken
    rintro u g rfl hstill
    exact Standing.generation_of_woken hnumbered hstill
  refine ⟨?_, houtrun⟩
  intro hnone hpending hheard
  by_contra hactive
  obtain ⟨before, ev, rest, rfl, -, hevent | ⟨t, hsurvives, -⟩⟩ := houtrun (by simpa using hactive)
  · rw [hevent] at hpending
    exact hpending (List.mem_append_right _ List.mem_cons_self)
  · rcases hsurvives with ⟨r, hrole, hstarting⟩ | ⟨⟨g, hrole⟩, hfirst⟩
    · rw [Standing.isStarting_eq_false.mp hnone _ hrole] at hstarting
      cases hstarting
    · have hlate := hheard _ hrole rfl
      rw [timerFirst_append hfirst] at hlate
      cases hlate

/-- The host closed the watched link, and the servant waits to reconnect. -/
def waitingToReconnect : List Event := [.start 0, .dialed 0 none, .dialed 1 none, .ended 1 .closed]

/-- Stopped then, it stays inactive if its loop hears of that before its timer goes off. -/
theorem stop_outrun_waiting :
    let s := (ofProfile pairHost).after waitingToReconnect
    Reachable pairHost s ∧ s.standing.roles = [(2, .retrying 0)] ∧
      ((s.step .stop).1.after [.wake 2, .alarm 2, .dialed 2 none]).active = false := by
  intro s
  have hreachable : Reachable pairHost s := Reachable.initial.after _
  refine ⟨hreachable, by decide, ?_⟩
  exact (stop_outrun hreachable [.wake 2, .alarm 2, .dialed 2 none] (by decide)).1 (by decide)
    (by decide) (by decide)

/-- A group was to be enabled, and its only servant could not be started. What is left of that call
is to set off a loop for it. -/
def refusedByHost : List Event := [.start 0, .dialed 0 (some .closedByBackend)]

/-- Three ways to be active after a stop, although nobody called for it. The stop comes while an
attempt to reconnect is under way; it comes before that attempt, and the timer is faster; or it
comes when the start that somebody called for has failed, and before that call sets off a loop. -/
theorem active_after_stop :
    let attempting := (ofProfile pairHost).after (waitingToReconnect ++ [.alarm 2])
    let waiting := (ofProfile pairHost).after waitingToReconnect
    let enabling := (ofProfile pairHost).after refusedByHost
    (Reachable pairHost attempting ∧ (attempting.step .stop).1.active = false ∧
      ((attempting.step .stop).1.after [.dialed 2 none, .dialed 3 none]).active = true) ∧
    (Reachable pairHost waiting ∧ (waiting.step .stop).1.active = false ∧
      ((waiting.step .stop).1.after [.alarm 2, .dialed 2 none, .dialed 3 none]).active = true) ∧
    (Reachable pairHost enabling ∧ (enabling.step .stop).1.active = false ∧
      ((enabling.step .stop).1.after
        [.reconnect, .alarm 1, .dialed 1 none, .dialed 2 none]).active = true) := by
  refine ⟨⟨Reachable.initial.after _, by decide, by decide⟩,
    ⟨Reachable.initial.after _, by decide, by decide⟩, Reachable.initial.after _, by decide,
    by decide⟩

/-! ## Whether an active servant can serve -/

/-- Every event of the run is admitted. -/
def calmly (s : Servant) : List Event → Bool
  | [] => true
  | ev :: evs => s.standing.admits ev && (s.step ev).1.calmly evs

theorem tuned_initial (p : Profile) : (ofProfile p).standing.Tuned :=
  Standing.tuned_of_loops nofun nofun

theorem tuned_after (h : s.standing.Tuned) (evs : List Event) (hcalm : s.calmly evs = true) :
    (s.after evs).standing.Tuned := by
  induction evs generalizing s with
  | nil => exact h
  | cons ev evs ih =>
      obtain ⟨hadmits, hrest⟩ := Bool.and_eq_true_iff.mp hcalm
      exact ih (h.turn (Standing.turn_step s ev) hadmits) hrest

/-- **An active servant can serve where starts are made one at a time.** In a run in which nobody
begins to start a servant that is up, being started or watched still since a stop, nor stops one
that is being started, a servant that is active has an open pool. In other runs this is lost in one
way only: a start comes to its end that had its first connection. Either the second could not be
made, and the pool of a servant that could serve was closed; or it was made, of a servant whose pool
was closed meanwhile. -/
theorem active_serves (p : Profile) (evs : List Event) :
    ((ofProfile p).calmly evs = true → ((ofProfile p).after evs).active = true →
      ((ofProfile p).after evs).pool.isOpen = true) ∧
    (((ofProfile p).after evs).active = true → ((ofProfile p).after evs).pool.isOpen = false →
      ∃ before ev rest t, evs = before ++ ev :: rest ∧
        (∃ o, (t, .linking o) ∈ ((ofProfile p).after before).standing.roles) ∧
        (((ofProfile p).after before).step ev).1.standing.IsOver t ∧
        ((ofProfile p).after before).active = ((ofProfile p).after before).pool.isOpen ∧
        (((ofProfile p).after before).step ev).1.active = true ∧
        (((ofProfile p).after before).step ev).1.pool.isOpen = false) := by
  constructor
  · intro hcalm
    exact (tuned_after (tuned_initial p) evs hcalm).serves
  · intro hactive hclosed
    have hend : ¬ (((ofProfile p).after evs).active = true →
        ((ofProfile p).after evs).pool.isOpen = true) := by
      intro hserves
      cases hclosed.symm.trans (hserves hactive)
    obtain ⟨before, ev, rest, rfl, hserves, hbroken⟩ := exists_breaking
      (P := fun evs => ((ofProfile p).after evs).active = true →
        ((ofProfile p).after evs).pool.isOpen = true) evs nofun hend
    rw [after_concat] at hbroken
    obtain ⟨hup, hshut⟩ := Classical.not_imp.mp hbroken
    rw [Bool.not_eq_true] at hshut
    obtain ⟨t, hlinking, hover, hsame⟩ :=
      (Standing.turn_step ((ofProfile p).after before) ev).parted hserves hup hshut
    exact ⟨before, ev, rest, t, rfl, hlinking, hover, hsame, hup, hshut⟩

/-- The host closes the watched link, and the servant reconnects. -/
def reconnected : List Event := waitingToReconnect ++ [.alarm 2, .dialed 2 none, .dialed 3 none]

theorem active_serves_reconnected :
    (ofProfile pairHost).calmly reconnected = true ∧
      ((ofProfile pairHost).after reconnected).active = true ∧
      ((ofProfile pairHost).after reconnected).pool.isOpen = true := by
  have hcalm : (ofProfile pairHost).calmly reconnected = true := by decide
  have hactive : ((ofProfile pairHost).after reconnected).active = true := by decide
  exact ⟨hcalm, hactive, (active_serves pairHost reconnected).1 hcalm hactive⟩

/-- A servant that serves is started once more, and that start fails at its second connection. -/
def startedTwice : List Event :=
  [.start 0, .dialed 0 none, .dialed 1 none, .start 1, .dialed 2 none,
    .dialed 3 (some .closedByBackend)]

/-- It is active with a closed pool, and nothing is under way that would open it. -/
theorem active_closed :
    let s := (ofProfile pairHost).after startedTwice
    s.active = true ∧ s.pool.isOpen = false ∧ s.standing.isStarting = false := by
  decide

end Servant

end ShardProxy.Backend
