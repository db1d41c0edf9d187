import Mathlib.Data.List.Nodup
import Mathlib.Data.List.Perm.Basic

/-!
# Entries by key

Lists of entries in which one is looked up by its key: the first of that key counts. Where every key
stands once, the order of the entries does not matter.
-/

namespace ShardProxy

open scoped List

variable {κ α : Type} [BEq κ] [LawfulBEq κ] {entries entries' : List (κ × α)} {k l : κ} {a : α}

theorem lookup_of_mem (hkeys : (entries.map (·.1)).Nodup) (h : (k, a) ∈ entries) :
    entries.lookup k = some a := by
  obtain ⟨before, after, rfl⟩ := List.append_of_mem h
  rw [List.map_append, List.map_cons] at hkeys
  have hmiddle := List.perm_middle.nodup_iff.mp hkeys
  rw [List.nodup_cons, List.mem_append, not_or] at hmiddle
  refine List.lookup_eq_some_iff.mpr ⟨before, after, rfl, fun q hq => ?_⟩
  have hne : k ≠ q.1 := by
    rintro rfl
    exact hmiddle.1.1 (List.mem_map.mpr ⟨q, hq, rfl⟩)
  simpa using hne

theorem mem_of_lookup (h : entries.lookup k = some a) : (k, a) ∈ entries := by
  obtain ⟨before, after, rfl, _⟩ := List.lookup_eq_some_iff.mp h
  exact List.mem_append_right _ List.mem_cons_self

theorem lookup_isSome : (entries.lookup k).isSome = true ↔ k ∈ entries.map (·.1) := by
  rw [List.lookup_isSome_iff, List.mem_map]
  refine exists_congr fun q => and_congr_right fun _ => ?_
  rw [beq_iff_eq, eq_comm]

/-- In which order the entries stand makes no difference. -/
theorem lookup_perm (hkeys : (entries.map (·.1)).Nodup) (h : entries ~ entries') (k : κ) :
    entries'.lookup k = entries.lookup k := by
  have hkeys' : (entries'.map (·.1)).Nodup := (h.map _).nodup_iff.mp hkeys
  refine Option.ext fun a => ⟨fun ha => ?_, fun ha => ?_⟩
  · exact lookup_of_mem hkeys (h.mem_iff.mpr (mem_of_lookup ha))
  · exact lookup_of_mem hkeys' (h.mem_iff.mp (mem_of_lookup ha))

/-- Taking one key out leaves the others. -/
theorem lookup_filter_ne (entries : List (κ × α)) (h : l ≠ k) :
    (entries.filter (·.1 != k)).lookup l = entries.lookup l := by
  have hne : (l == k) = false := beq_false_of_ne h
  induction entries with
  | nil => rfl
  | cons q entries ih =>
      by_cases hq : q.1 = k
      · rw [List.filter_cons_of_neg (by simpa using hq), List.lookup_cons, ih, hq, hne]
      · rw [List.filter_cons_of_pos (by simpa using hq), List.lookup_cons, List.lookup_cons, ih]

end ShardProxy
