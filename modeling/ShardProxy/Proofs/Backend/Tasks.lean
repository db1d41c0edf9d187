import ShardProxy.Backend.Servant
import ShardProxy.Proofs.Lookup

/-!
# Numbered tasks

The tasks of a servant have different numbers. So a task can be taken out, changed and put back, and
the others are the same tasks as before. A task on whose behalf code runs is not at rest.
-/

namespace ShardProxy.Backend

open scoped List

/-- Those tasks that are not running. -/
def resting (tasks : List (TaskId × Task)) (running : List TaskId) : List (TaskId × Task) :=
  tasks.filter (·.1 ∉ running)

variable {tasks : List (TaskId × Task)} {running : List TaskId} {t : TaskId} {task : Task}

theorem mem_resting {q : TaskId × Task} :
    q ∈ resting tasks running ↔ q ∈ tasks ∧ q.1 ∉ running := by
  unfold resting
  rw [List.mem_filter, decide_eq_true_iff]

@[simp] theorem resting_nil_running (tasks : List (TaskId × Task)) : resting tasks [] = tasks := by
  apply List.filter_eq_self.mpr
  intro q _
  simp

theorem resting_append (as bs : List (TaskId × Task)) (running : List TaskId) :
    resting (as ++ bs) running = resting as running ++ resting bs running := List.filter_append ..

/-- A task that is gone and one that is running are alike to the others. -/
theorem resting_filter (tasks : List (TaskId × Task)) (t : TaskId) (running : List TaskId) :
    resting (tasks.filter (·.1 != t)) running = resting tasks (t :: running) := by
  unfold resting
  rw [List.filter_filter]
  congr 1
  funext q
  by_cases hq : q.1 = t
  · simp [hq]
  · simp [hq]

theorem resting_of_absent (ht : t ∉ tasks.map (·.1)) (running : List TaskId) :
    resting tasks (t :: running) = resting tasks running := by
  rw [← resting_filter, List.filter_eq_self.mpr]
  intro q hq
  have hne : q.1 ≠ t := fun h => ht (h ▸ List.mem_map_of_mem hq)
  simpa using hne

theorem resting_of_running (ht : t ∈ running) :
    resting tasks (t :: running) = resting tasks running := by
  unfold resting
  congr 1
  funext q
  by_cases hq : q.1 = t
  · simp [hq, ht]
  · simp [hq]

theorem resting_sublist (tasks : List (TaskId × Task)) (t : TaskId) (running : List TaskId) :
    (resting tasks (t :: running)).Sublist (resting tasks running) := by
  rw [← resting_filter]
  exact List.filter_sublist.filter _

/-- A task that begins to run leaves the others at rest. -/
theorem resting_take (hnumbered : (tasks.map (·.1)).Nodup) (ht : (t, task) ∈ tasks)
    (hrest : t ∉ running) : resting tasks running ~ (t, task) :: resting tasks (t :: running) := by
  obtain ⟨before, after, rfl⟩ := List.append_of_mem ht
  rw [List.map_append, List.map_cons] at hnumbered
  have hmiddle := List.perm_middle.nodup_iff.mp hnumbered
  rw [List.nodup_cons, List.mem_append, not_or] at hmiddle
  obtain ⟨hbefore, hafter⟩ := hmiddle.1
  -- the number stands in neither part, so both rest as they did
  have hsame : resting (before ++ (t, task) :: after) (t :: running) =
      resting before running ++ resting after running := by
    rw [← resting_of_absent hbefore, ← resting_of_absent hafter, resting_append]
    congr 1
    exact List.filter_cons_of_neg (by simp)
  rw [hsame, resting_append]
  have hself : resting ((t, task) :: after) running = (t, task) :: resting after running :=
    List.filter_cons_of_pos (by simpa using hrest)
  rw [hself]
  exact List.perm_middle

/-- A servant's tasks after one was changed. -/
theorem map_fst_set (tasks : List (TaskId × Task)) (t : TaskId) (task : Task) :
    (tasks.map fun q => if q.1 = t then (t, task) else q).map (·.1) = tasks.map (·.1) := by
  rw [List.map_map]
  apply List.map_congr_left
  intro q _
  by_cases hq : q.1 = t
  · simp [hq]
  · simp [hq]

/-- What is noted of a running task is nothing to the others. -/
theorem resting_set_of_running (ht : t ∈ running) (task : Task) :
    resting (tasks.map fun q => if q.1 = t then (t, task) else q) running =
      resting tasks running := by
  unfold resting
  induction tasks with
  | nil => rfl
  | cons q tasks ih =>
      rw [List.map_cons, List.filter_cons, List.filter_cons, ih]
      by_cases hq : q.1 = t
      · simp [hq, ht]
      · rw [if_neg hq]

/-- A task that comes to rest joins the others. -/
theorem resting_put (hnumbered : (tasks.map (·.1)).Nodup) (ht : t ∈ tasks.map (·.1))
    (hrest : t ∉ running) (task : Task) :
    resting (tasks.map fun q => if q.1 = t then (t, task) else q) running ~
      (t, task) :: resting tasks (t :: running) := by
  have hsame : resting (tasks.map fun q => if q.1 = t then (t, task) else q) (t :: running) =
      resting tasks (t :: running) := resting_set_of_running List.mem_cons_self task
  rw [← hsame]
  obtain ⟨q, hq, hqt⟩ := List.mem_map.mp ht
  refine resting_take ?_ ?_ hrest
  · rw [map_fst_set]
    exact hnumbered
  · refine List.mem_map.mpr ⟨q, hq, ?_⟩
    rw [if_pos hqt]

end ShardProxy.Backend
