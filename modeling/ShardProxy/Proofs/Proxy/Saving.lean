import ShardProxy.Proofs.Proxy.Folding

/-!
# What stands in the state file

A mapping command changes the table, puts together what the mappings are now, and writes that out.
Changes of the table take turns, but nothing guards the two steps after a change: commands of other
clients come in between. Whoever is overtaken there writes a state that is none any more over one
that is newer. Each of the three steps counts as one here, whatever it is made of.

* `MappingCommand`, `Progress`, `proceed` — a command and its steps, which without interruption are
  what `afterAdmin` does;
* `Saving`, `Saving.Turn` — a proxy with the commands that are under way, and what a turn can do;
* `Saving.LastWrite` — who was the last to write, when it looked and when it wrote;
* `saved_by_last_write` — what the file says when all is done, and when that is the truth;
* `Saving.saved_of_uninterrupted` — it is, if looking and writing are one step;
* `Saving.after_overtaken` — any two commands can leave a file that shows only the first.
-/

namespace ShardProxy.Proxy

open Routing
open Wire (Message)

/-! ## Commands and their steps -/

/-- A command that maps, with its request. -/
inductive MappingCommand where
  | mapSlot (m : Message)
  | mapKeys (m : Message)
  | unmapKeys (m : Message)

namespace MappingCommand

def kind : MappingCommand → Command.Kind
  | mapSlot _ => .hashMapping
  | mapKeys _ => .addKeyMapping
  | unmapKeys _ => .delKeyMapping

def request : MappingCommand → Message
  | mapSlot m | mapKeys m | unmapKeys m => m

def outcome (t : Table) : MappingCommand → Outcome
  | mapSlot m => hashMapping t m
  | mapKeys m => addKeyMapping t m
  | unmapKeys m => delKeyMapping t m

/-- The command is not refused. -/
def Succeeds (c : MappingCommand) (t : Table) : Prop := (c.outcome t).changed.isSome = true

instance (c : MappingCommand) (t : Table) : Decidable (c.Succeeds t) :=
  inferInstanceAs (Decidable (_ = true))

variable {t t' : Table} {p : Proxy}

/-- This is what the proxy does with the request. -/
theorem begin_eq {c : MappingCommand} {authenticated : Bool}
    (h : p.Serves c.kind c.request authenticated) :
    p.begin c.request authenticated =
      (.answered (c.outcome p.table).reply, authenticated, p.afterAdmin (c.outcome p.table)) := by
  obtain ⟨spec, hkind, hbegin⟩ := begin_of_serves h
  rw [hbegin]
  unfold serve
  rw [hkind]
  cases c with
  | mapSlot | mapKeys | unmapKeys => rfl

theorem alike_outcome (c : MappingCommand) (t : Table) : t.Alike ((c.outcome t).table t) := by
  have hremapped : t.Remapped ((c.outcome t).table t) := by
    cases c with
    | mapSlot m => exact remapped_hashMapping t m
    | mapKeys m => exact remapped_addKeyMapping t m
    | unmapKeys m => exact remapped_delKeyMapping t m
  obtain ⟨edits, -, hedits⟩ := hremapped
  rw [hedits]
  exact .afterAll t edits

end MappingCommand

theorem Outcome.Leads.isSome_changed {next : Table → Prop} {o : Outcome} (h : o.Leads next) :
    o.changed.isSome = true ↔ ∃ t', next t' := by
  cases h with
  | accepted hnext => exact iff_of_true rfl ⟨_, hnext⟩
  | refused _ _ hnone => exact iff_of_false Bool.false_ne_true fun ⟨t', ht'⟩ => hnone t' ht'

theorem groupToken?_alike {t t' : Table} (h : t.Alike t') (m : Message) (i : Nat) :
    groupToken? t' m i = groupToken? t m i := by
  unfold groupToken? Table.groupNamed?
  rw [h.shards]

/-- Whether a command succeeds does not depend on what was mapped before. -/
theorem MappingCommand.Succeeds.alike {c : MappingCommand} {t t' : Table} (h : c.Succeeds t)
    (halike : t.Alike t') : c.Succeeds t' := by
  unfold Succeeds at h ⊢
  cases c with
  | mapSlot m =>
      obtain ⟨_, hcount, g, i, hgroup, hslot, hset⟩ :=
        (leads_hashMapping t m).isSome_changed.mp h
      refine (leads_hashMapping t' m).isSome_changed.mpr
        ⟨_, hcount, g, i, (groupToken?_alike halike m 2).trans hgroup, hslot,
          Table.setSlot_eq_some_iff.mpr ⟨?_, rfl⟩⟩
      rw [halike.size_eq]
      exact (Table.setSlot_eq_some_iff.mp hset).1
  | mapKeys m =>
      obtain ⟨_, hcount, g, hgroup, -⟩ := (leads_addKeyMapping t m).isSome_changed.mp h
      exact (leads_addKeyMapping t' m).isSome_changed.mpr
        ⟨_, hcount, g, (groupToken?_alike halike m 1).trans hgroup, rfl⟩
  | unmapKeys m =>
      obtain ⟨_, hcount, -⟩ := (leads_delKeyMapping t m).isSome_changed.mp h
      exact (leads_delKeyMapping t' m).isSome_changed.mpr ⟨_, hcount, rfl⟩

/-- Writes a state out, where that is possible. -/
def writeState (seen : Config.MappingState) : StateFile → StateFile
  | .writable _ => .writable (some seen)
  | file => file

theorem persist_eq (t : Table) (file : StateFile) :
    persist t file = writeState (mappingState t) file := by
  cases file with
  | none | writable | unwritable => rfl

/-- How far a mapping command is. -/
inductive Progress where
  | waiting (c : MappingCommand)
  /-- The table has changed. -/
  | changed
  /-- The command has looked at the table, and this is about to be written. -/
  | looked (seen : Config.MappingState)
  | finished

namespace Progress

def isFinished : Progress → Bool
  | finished => true
  | waiting _ | changed | looked _ => false

/-- A command is pending from its change up to its write. -/
def isPending : Progress → Bool
  | changed | looked _ => true
  | waiting _ | finished => false

end Progress

/-- One step of a command. -/
def proceed (p : Proxy) : Progress → Proxy × Progress
  | .waiting c =>
    match (c.outcome p.table).changed with
    | none => (p, .finished)
    | some table => ({ p with table }, .changed)
  | .changed => (p, .looked (mappingState p.table))
  | .looked seen => ({ p with stateFile := writeState seen p.stateFile }, .finished)
  | .finished => (p, .finished)

theorem proceed_refused {p : Proxy} {c : MappingCommand}
    (h : (c.outcome p.table).changed = none) : p.proceed (.waiting c) = (p, .finished) := by
  simp only [proceed, h]

theorem proceed_changes {p : Proxy} {c : MappingCommand} {table : Table}
    (h : (c.outcome p.table).changed = some table) :
    p.proceed (.waiting c) = ({ p with table }, .changed) := by
  simp only [proceed, h]

/-- A proxy, and the commands that clients have sent. -/
structure Saving where
  proxy : Proxy
  commands : List Progress

namespace Saving

def start (p : Proxy) (cs : List MappingCommand) : Saving := ⟨p, cs.map .waiting⟩

/-- One of the commands goes on. -/
def next (s : Saving) (i : Nat) : Saving :=
  match s.commands[i]? with
  | none => s
  | some progress =>
    let (proxy, progress) := s.proxy.proceed progress
    ⟨proxy, s.commands.set i progress⟩

/-- The commands go on in any order. -/
def after (s : Saving) (turns : List Nat) : Saving := turns.foldl next s

def Done (s : Saving) : Prop := ∀ x ∈ s.commands, x.isFinished = true

instance (s : Saving) : Decidable s.Done :=
  inferInstanceAs (Decidable (∀ x ∈ s.commands, x.isFinished = true))

/-- Some command has changed the table and not written yet. -/
def Pending (s : Saving) : Prop :=
  ∃ (j : Nat) (x : Progress), s.commands[j]? = some x ∧ x.isPending = true

/-- At its next turn the command writes. -/
def Writes (s : Saving) (i : Nat) : Prop := ∃ seen, s.commands[i]? = some (.looked seen)

/-- None of these turns is a write. -/
def Unwritten (s : Saving) (turns : List Nat) : Prop :=
  ∀ x i, x ++ [i] <+: turns → ¬ (s.after x).Writes i

variable {s s' : Saving} {i j : Nat} {turns : List Nat}

theorem after_append (s : Saving) (xs ys : List Nat) :
    s.after (xs ++ ys) = (s.after xs).after ys := List.foldl_append

theorem after_concat (s : Saving) (turns : List Nat) (i : Nat) :
    s.after (turns ++ [i]) = (s.after turns).next i := after_append s turns [i]

theorem next_eq {progress : Progress} (h : s.commands[i]? = some progress) :
    s.next i = ⟨(s.proxy.proceed progress).1, s.commands.set i (s.proxy.proceed progress).2⟩ := by
  unfold next
  rw [h]

theorem getElem?_set_self {progress : Progress} (h : s.commands[i]? = some progress)
    (progress' : Progress) : (s.commands.set i progress')[i]? = some progress' := by
  rw [List.getElem?_set_self', h]
  rfl

/-- Commands do not get in the way of each other's progress. -/
theorem getElem?_next_ne (s : Saving) (h : j ≠ i) : (s.next i).commands[j]? = s.commands[j]? := by
  unfold next
  split
  · rfl
  · exact List.getElem?_set_ne h.symm

/-- What a turn can do. -/
inductive Turn (s : Saving) (i : Nat) : Saving → Prop where
  | idle : (∀ x, s.commands[i]? = some x → x = .finished) → Turn s i s
  | refused {c : MappingCommand} : s.commands[i]? = some (.waiting c) → ¬ c.Succeeds s.proxy.table →
      Turn s i ⟨s.proxy, s.commands.set i .finished⟩
  | changes {c : MappingCommand} {table : Table} : s.commands[i]? = some (.waiting c) →
      (c.outcome s.proxy.table).changed = some table →
      Turn s i ⟨{ s.proxy with table }, s.commands.set i .changed⟩
  | looks : s.commands[i]? = some .changed →
      Turn s i ⟨s.proxy, s.commands.set i (.looked (mappingState s.proxy.table))⟩
  | writes {seen : Config.MappingState} : s.commands[i]? = some (.looked seen) →
      Turn s i ⟨{ s.proxy with stateFile := writeState seen s.proxy.stateFile },
        s.commands.set i .finished⟩

theorem turn_next (s : Saving) (i : Nat) : s.Turn i (s.next i) := by
  cases hi : s.commands[i]? with
  | none =>
      have hnext : s.next i = s := by
        unfold next
        rw [hi]
      rw [hnext]
      refine .idle fun x hx => ?_
      rw [hi] at hx
      cases hx
  | some progress =>
      rw [next_eq hi]
      cases progress with
      | waiting c =>
          cases hchanged : (c.outcome s.proxy.table).changed with
          | none =>
              rw [proceed_refused hchanged]
              exact .refused hi (by simp [MappingCommand.Succeeds, hchanged])
          | some table =>
              rw [proceed_changes hchanged]
              exact .changes hi hchanged
      | changed => exact .looks hi
      | looked seen => exact .writes hi
      | finished =>
          obtain ⟨hlt, hget⟩ := List.getElem?_eq_some_iff.mp hi
          have hset : s.commands.set i .finished = s.commands := by
            rw [← hget]
            exact List.set_getElem_self hlt
          show s.Turn i ⟨s.proxy, s.commands.set i .finished⟩
          rw [hset]
          refine .idle fun x hx => ?_
          rw [hi] at hx
          exact (Option.some.inj hx).symm

/-- A command goes on after it has gone on. -/
theorem next_set {progress : Progress} (h : s.commands[i]? = some progress) (p : Proxy)
    (progress' : Progress) :
    next ⟨p, s.commands.set i progress'⟩ i =
      ⟨(p.proceed progress').1, s.commands.set i (p.proceed progress').2⟩ := by
  rw [next_eq (s := ⟨p, s.commands.set i progress'⟩) (getElem?_set_self h progress'), List.set_set]

/-- Three steps in a row are one mapping command. -/
theorem after_uninterrupted {c : MappingCommand} (h : s.commands[i]? = some (.waiting c)) :
    s.after [i, i, i] =
      ⟨s.proxy.afterAdmin (c.outcome s.proxy.table), s.commands.set i .finished⟩ := by
  show ((s.next i).next i).next i = _
  unfold afterAdmin
  cases hchanged : (c.outcome s.proxy.table).changed with
  | none =>
      rw [next_eq h, proceed_refused hchanged, next_set h, next_set h]
      rfl
  | some table =>
      rw [next_eq h, proceed_changes hchanged, next_set h, next_set h]
      simp only [proceed, persist_eq]

/-! ## Runs -/

theorem Turn.alike (h : s.Turn i s') : s.proxy.table.Alike s'.proxy.table := by
  cases h with
  | idle | refused | looks | writes => exact .refl _
  | @changes c table _ hchanged =>
      have halike := c.alike_outcome s.proxy.table
      rwa [Outcome.table, hchanged] at halike

theorem alike_after (s : Saving) (turns : List Nat) :
    s.proxy.table.Alike (s.after turns).proxy.table := by
  induction turns generalizing s with
  | nil => exact .refl _
  | cons i turns ih => exact (s.turn_next i).alike.trans (ih (s.next i))

theorem Turn.writable (h : s.Turn i s') (hfile : ∃ saved, s.proxy.stateFile = .writable saved) :
    ∃ saved, s'.proxy.stateFile = .writable saved := by
  cases h with
  | idle | refused | changes | looks => exact hfile
  | @writes seen _ =>
      obtain ⟨saved, hsaved⟩ := hfile
      exact ⟨some seen, congrArg (writeState seen) hsaved⟩

theorem writable_after (h : ∃ saved, s.proxy.stateFile = .writable saved) (turns : List Nat) :
    ∃ saved, (s.after turns).proxy.stateFile = .writable saved := by
  induction turns generalizing s with
  | nil => exact h
  | cons i turns ih => exact ih ((s.turn_next i).writable h)

/-- Only a write changes the file. -/
theorem Turn.stateFile_eq (h : s.Turn i s') (hi : ¬ s.Writes i) :
    s'.proxy.stateFile = s.proxy.stateFile := by
  cases h with
  | idle | refused | changes | looks => rfl
  | writes hseen => exact absurd ⟨_, hseen⟩ hi

/-- Whoever changes the table is pending. -/
theorem Turn.table_eq_or_pending (h : s.Turn i s') :
    s'.proxy.table = s.proxy.table ∨ s'.Pending := by
  cases h with
  | idle | refused | looks | writes => exact .inl rfl
  | changes hwaiting _ => exact .inr ⟨i, _, getElem?_set_self hwaiting _, rfl⟩

/-- Whoever is pending stays so, unless it writes. -/
theorem Turn.pending (h : s.Turn i s') (hi : ¬ s.Writes i) (hs : s.Pending) : s'.Pending := by
  cases h with
  | idle => exact hs
  | refused hwaiting _ =>
      obtain ⟨j, x, hx, hpending⟩ := hs
      have hij : i ≠ j := by
        rintro rfl
        rw [hwaiting] at hx
        cases hx
        cases hpending
      exact ⟨j, x, (List.getElem?_set_ne hij).trans hx, hpending⟩
  | changes hwaiting _ => exact ⟨i, _, getElem?_set_self hwaiting _, rfl⟩
  | looks hchanged => exact ⟨i, _, getElem?_set_self hchanged _, rfl⟩
  | writes hseen => exact absurd ⟨_, hseen⟩ hi

/-- A command that succeeds changes the table at its first turn. -/
theorem Turn.pending_of_succeeds (h : s.Turn i s') {c : MappingCommand}
    (hi : s.commands[i]? = some (.waiting c)) (hc : c.Succeeds s.proxy.table) : s'.Pending := by
  cases h with
  | idle hidle => cases hidle _ hi
  | refused hwaiting hrefused =>
      rw [hi] at hwaiting
      cases hwaiting
      exact absurd hc hrefused
  | changes hwaiting _ => exact ⟨i, _, getElem?_set_self hwaiting _, rfl⟩
  | looks h | writes h =>
      rw [hi] at h
      cases h

/-- What a command is about to write is what it saw at its last turn. -/
theorem exists_look (hstart : ∀ i, ¬ s.Writes i) (turns : List Nat)
    {seen : Config.MappingState} (h : (s.after turns).commands[i]? = some (.looked seen)) :
    ∃ before between, turns = before ++ i :: between ∧ i ∉ between ∧
      (s.after before).commands[i]? = some .changed ∧
      seen = mappingState (s.after before).proxy.table := by
  induction turns using List.reverseRecOn with
  | nil => exact absurd ⟨seen, h⟩ (hstart i)
  | append_singleton turns k ih =>
      rw [after_concat] at h
      by_cases hik : i = k
      · subst hik
        have hturn := (s.after turns).turn_next i
        generalize (s.after turns).next i = s' at h hturn
        cases hturn with
        | idle hidle => cases hidle _ h
        | refused hi | changes hi | writes hi =>
            rw [getElem?_set_self hi] at h
            cases h
        | looks hi =>
            rw [getElem?_set_self hi] at h
            cases h
            exact ⟨turns, [], rfl, List.not_mem_nil, hi, rfl⟩
      · rw [getElem?_next_ne _ hik] at h
        obtain ⟨before, between, rfl, hnot, hlook, hseen⟩ := ih h
        refine ⟨before, between ++ [k], by simp, ?_, hlook, hseen⟩
        simpa [hnot] using hik

/-- The last command to write is `i`. It looked after `before`, and it wrote when besides the turns
`between` had been taken. -/
structure LastWrite (s : Saving) (turns before between : List Nat) (i : Nat) : Prop where
  split : ∃ rest, turns = before ++ i :: between ++ i :: rest ∧
    (s.after (before ++ i :: between ++ [i])).Unwritten rest
  notBetween : i ∉ between
  looked : (s.after before).commands[i]? = some .changed
  saved : (s.after turns).proxy.stateFile =
    .writable (some (mappingState (s.after before).proxy.table))
  /-- Whoever has changed the table since then is pending. -/
  changed : (s.after turns).proxy.table = (s.after (before ++ i :: between)).proxy.table ∨
    (s.after turns).Pending

namespace LastWrite

variable {before between : List Nat}

/-- A turn that writes. -/
theorem of_writes (hstart : ∀ i, ¬ s.Writes i)
    (hfile : ∃ saved, s.proxy.stateFile = .writable saved) (h : (s.after turns).Writes i) :
    ∃ before between, s.LastWrite (turns ++ [i]) before between i := by
  obtain ⟨seen, h⟩ := h
  obtain ⟨before, between, rfl, hnot, hlook, rfl⟩ := exists_look hstart turns h
  obtain ⟨saved, hsaved⟩ := writable_after hfile (before ++ i :: between)
  refine ⟨before, between, ⟨[], rfl, ?_⟩, hnot, hlook, ?_, .inl ?_⟩
  · intro x j hx
    simp at hx
  · rw [after_concat, next_eq h]
    show writeState _ _ = _
    rw [hsaved]
    rfl
  · rw [after_concat, next_eq h]
    rfl

/-- A turn that does not write. -/
theorem concat (h : s.LastWrite turns before between i) {k : Nat}
    (hk : ¬ (s.after turns).Writes k) : s.LastWrite (turns ++ [k]) before between i := by
  have hturn := (s.after turns).turn_next k
  rw [← after_concat] at hturn
  refine ⟨?_, h.notBetween, h.looked, (hturn.stateFile_eq hk).trans h.saved, ?_⟩
  · obtain ⟨rest, rfl, hrest⟩ := h.split
    refine ⟨rest ++ [k], by simp, fun x j hx => ?_⟩
    rcases List.prefix_concat_iff.mp hx with heq | hx
    · obtain ⟨rfl, hkj⟩ := List.append_inj' heq rfl
      cases hkj
      rw [← after_append]
      simpa using hk
    · exact hrest x j hx
  · rcases h.changed with htable | hpending
    · exact hturn.table_eq_or_pending.imp_left (·.trans htable)
    · exact .inr (hturn.pending hk hpending)

end LastWrite

/-- A command that succeeds has its change or its write still before it, or somebody has written. -/
theorem exists_lastWrite (hstart : ∀ i, ¬ s.Writes i)
    (hfile : ∃ saved, s.proxy.stateFile = .writable saved) {c : MappingCommand}
    (hc : c.Succeeds s.proxy.table) (hj : s.commands[j]? = some (.waiting c)) (turns : List Nat) :
    (∃ before between i, s.LastWrite turns before between i) ∨
      (s.after turns).commands[j]? = some (.waiting c) ∨ (s.after turns).Pending := by
  induction turns using List.reverseRecOn with
  | nil => exact .inr (.inl hj)
  | append_singleton turns k ih =>
      by_cases hk : (s.after turns).Writes k
      · obtain ⟨before, between, hwrite⟩ := LastWrite.of_writes hstart hfile hk
        exact .inl ⟨before, between, k, hwrite⟩
      · have hturn := (s.after turns).turn_next k
        rw [← after_concat] at hturn
        rcases ih with ⟨before, between, i, hwrite⟩ | hwaiting | hpending
        · exact .inl ⟨before, between, i, hwrite.concat hk⟩
        · by_cases hkj : j = k
          · subst hkj
            exact .inr (.inr (hturn.pending_of_succeeds hwaiting (hc.alike (s.alike_after turns))))
          · rw [after_concat, getElem?_next_ne _ hkj]
            exact .inr (.inl hwaiting)
        · exact .inr (.inr (hturn.pending hk hpending))

/-- A command changes the table and looks at it, and before it writes another one goes through all of
its steps. Then all is done, and the file does not show the change of the other. -/
theorem after_overtaken {p : Proxy} {a b : MappingCommand} {t t' : Table}
    (hfile : ∃ saved, p.stateFile = .writable saved)
    (ha : (a.outcome p.table).changed = some t) (hb : (b.outcome t).changed = some t') :
    (start p [a, b]).after [0, 0, 1, 1, 1, 0] =
      ⟨{ p with table := t', stateFile := .writable (some (mappingState t)) },
        [.finished, .finished]⟩ := by
  obtain ⟨saved, hsaved⟩ := hfile
  simp [after, start, next, proceed, ha, hb, hsaved, writeState]

section Finished

variable {p : Proxy} {commands : List MappingCommand}

theorem not_writes_start (p : Proxy) (commands : List MappingCommand) (i : Nat) :
    ¬ (start p commands).Writes i := by
  rintro ⟨seen, h⟩
  obtain ⟨_, _, hx⟩ := List.mem_map.mp (List.mem_of_getElem? h)
  cases hx

theorem Done.not_pending (h : s.Done) : ¬ s.Pending := by
  rintro ⟨j, x, hx, hpending⟩
  have hfinished := h x (List.mem_of_getElem? hx)
  cases x with
  | waiting | finished => cases hpending
  | changed | looked => cases hfinished

/-- When all is done somebody was the last to write, and the table has not changed since. -/
theorem Done.exists_lastWrite (hdone : ((start p commands).after turns).Done)
    (hfile : ∃ saved, p.stateFile = .writable saved)
    (hsome : ∃ c ∈ commands, c.Succeeds p.table) :
    ∃ before between i, (start p commands).LastWrite turns before between i ∧
      ((start p commands).after turns).proxy.table =
        ((start p commands).after (before ++ i :: between)).proxy.table := by
  obtain ⟨c, hcommand, hc⟩ := hsome
  obtain ⟨j, hj⟩ := List.mem_iff_getElem?.mp hcommand
  have hwaiting : (start p commands).commands[j]? = some (.waiting c) := by simp [start, hj]
  rcases Saving.exists_lastWrite (not_writes_start p commands) hfile hc hwaiting turns with
    ⟨before, between, i, hwrite⟩ | hwaits | hpending
  · exact ⟨before, between, i, hwrite, hwrite.changed.resolve_right hdone.not_pending⟩
  · cases hdone _ (List.mem_of_getElem? hwaits)
  · exact absurd hpending hdone.not_pending

/-- If nobody else goes on while a command is about to write, then no change is lost. -/
theorem saved_of_uninterrupted (hfile : ∃ saved, p.stateFile = .writable saved)
    (hsome : ∃ c ∈ commands, c.Succeeds p.table)
    (hdone : ((start p commands).after turns).Done)
    (hturns : ∀ x k, x ++ [k] <+: turns → ∀ i, ((start p commands).after x).Writes i → k = i) :
    ((start p commands).after turns).proxy.stateFile =
      .writable (some (mappingState ((start p commands).after turns).proxy.table)) := by
  obtain ⟨before, between, i, hwrite, htable⟩ := hdone.exists_lastWrite hfile hsome
  have hnext : (start p commands).after (before ++ [i]) =
      ⟨((start p commands).after before).proxy, ((start p commands).after before).commands.set i
        (.looked (mappingState ((start p commands).after before).proxy.table))⟩ := by
    rw [after_concat, next_eq hwrite.looked]
    rfl
  cases between with
  | nil => rw [hwrite.saved, htable, hnext]
  | cons k between =>
      -- the first turn after the look is another command's
      obtain ⟨rest, rfl, -⟩ := hwrite.split
      have hwrites : ((start p commands).after (before ++ [i])).Writes i := by
        rw [hnext]
        exact ⟨_, getElem?_set_self hwrite.looked _⟩
      obtain rfl : k = i := hturns (before ++ [i]) k ⟨between ++ i :: rest, by simp⟩ i hwrites
      exact absurd List.mem_cons_self hwrite.notBetween

end Finished

end Saving

open Saving

/-- **The state file shows the table as the last command to write has seen it.** The file can be
written, mapping commands are under way, one of them at least succeeds, and they go on in any order
until all have finished. Then one of them was the last to write. The file says what the mappings
were when that one looked, and the table has not changed since it wrote. So the file says what the
mappings are if and only if they were the same when it looked and when it wrote; as they were if
nobody else ever goes on while a command is about to write.

The three turns of a command in a row are what the proxy does with the request. And whatever two
commands succeed one after the other, the first one can be overtaken by the second between its look
and its write: then the file shows the table without the change of the second. -/
theorem saved_by_last_write {p : Proxy} {commands : List MappingCommand} {turns : List Nat}
    (hfile : ∃ saved, p.stateFile = .writable saved)
    (hsome : ∃ c ∈ commands, c.Succeeds p.table)
    (hdone : ((start p commands).after turns).Done) :
    (∃ before between i, (start p commands).LastWrite turns before between i ∧
      let looking := (start p commands).after before
      let writing := (start p commands).after (before ++ i :: between)
      let final := (start p commands).after turns
      final.proxy.table = writing.proxy.table ∧
      (final.proxy.stateFile = .writable (some (mappingState final.proxy.table)) ↔
        mappingState looking.proxy.table = mappingState writing.proxy.table)) ∧
    ((∀ x k, x ++ [k] <+: turns → ∀ i, ((start p commands).after x).Writes i → k = i) →
      ((start p commands).after turns).proxy.stateFile =
        .writable (some (mappingState ((start p commands).after turns).proxy.table))) ∧
    (∀ x i c authenticated, let s := (start p commands).after x
      s.commands[i]? = some (.waiting c) → s.proxy.Serves c.kind c.request authenticated →
        s.proxy.begin c.request authenticated =
          (.answered (c.outcome s.proxy.table).reply, authenticated, (s.after [i, i, i]).proxy)) ∧
    (∀ a b t t', (a.outcome p.table).changed = some t → (b.outcome t).changed = some t' →
      (start p [a, b]).after [0, 0, 1, 1, 1, 0] =
        ⟨{ p with table := t', stateFile := .writable (some (mappingState t)) },
          [.finished, .finished]⟩) := by
  refine ⟨?_, saved_of_uninterrupted hfile hsome hdone, ?_, ?_⟩
  · obtain ⟨before, between, i, hwrite, htable⟩ := hdone.exists_lastWrite hfile hsome
    refine ⟨before, between, i, hwrite, htable, ?_⟩
    rw [hwrite.saved, htable, StateFile.writable.injEq, Option.some.injEq]
  · intro x i c authenticated s hwaiting hserves
    rw [c.begin_eq hserves, after_uninterrupted hwaiting]
  · exact fun a b t t' ha hb => after_overtaken hfile ha hb

/-- One group, and a state file that nothing has been written to. -/
def sole.saving : Proxy := { sole with stateFile := .writable none }

/-- Two clients map a key each. -/
def twoKeys : List MappingCommand :=
  [.mapKeys (asked ["ADDKEYMAPPING", "g0", "x"]), .mapKeys (asked ["ADDKEYMAPPING", "g0", "y"])]

/-- The commands change the table one after the other, and write in the order in which they looked. -/
theorem saved_by_last_write_abreast :
    let final := (start sole.saving twoKeys).after [0, 0, 1, 1, 0, 1]
    (∃ saved, sole.saving.stateFile = .writable saved) ∧
      (∃ c ∈ twoKeys, c.Succeeds sole.saving.table) ∧ final.Done ∧
      final.proxy.stateFile = .writable (some (mappingState final.proxy.table)) ∧
      ∃ before between i,
        (start sole.saving twoKeys).LastWrite [0, 0, 1, 1, 0, 1] before between i ∧
        mappingState ((start sole.saving twoKeys).after before).proxy.table =
          mappingState ((start sole.saving twoKeys).after (before ++ i :: between)).proxy.table := by
  intro final
  have hfile : ∃ saved, sole.saving.stateFile = .writable saved := ⟨none, rfl⟩
  have hsome : ∃ c ∈ twoKeys, c.Succeeds sole.saving.table := by decide +kernel
  have hdone : final.Done := by decide +kernel
  have hsaved : final.proxy.stateFile = .writable (some (mappingState final.proxy.table)) := by
    decide +kernel
  obtain ⟨⟨before, between, i, hwrite, -, hiff⟩, -⟩ := saved_by_last_write hfile hsome hdone
  exact ⟨hfile, hsome, hdone, hsaved, before, between, i, hwrite, hiff.mp hsaved⟩

/-- The second client's key is mapped, and it is not in the file. -/
theorem mapping_unsaved :
    let final := (start sole.saving twoKeys).after [0, 0, 1, 1, 1, 0]
    sole.saving.stateFile = .writable none ∧ (∀ c ∈ twoKeys, c.Succeeds sole.saving.table) ∧
      final.Done ∧
      final.proxy.stateFile = .writable (some ⟨[⟨0, "g0"⟩], [⟨"x", "g0"⟩]⟩) ∧
      mappingState final.proxy.table = ⟨[⟨0, "g0"⟩], [⟨"x", "g0"⟩, ⟨"y", "g0"⟩]⟩ ∧
      final.proxy.stateFile ≠ .writable (some (mappingState final.proxy.table)) := by
  intro final
  exact ⟨rfl, by decide +kernel, by decide +kernel, by decide +kernel, by decide +kernel,
    by decide +kernel⟩

end ShardProxy.Proxy
