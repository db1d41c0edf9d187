import ShardProxy.Proofs.Lookup
import ShardProxy.Routing.Table

/-!
# Looking up by bytes

Overrides are looked up by key and groups by name. A key that is mapped again leaves its older group
for the newer one, and no other key is touched. Names are texts but come as bytes; different names
have different bytes.

* `Overrides.get?_insert_self`, `Overrides.get?_insert_ne` — the overrides after an insertion;
* `Overrides.get?_erase_self`, `Overrides.get?_erase_ne` — the overrides after a removal;
* `Overrides.get?_foldl` — the overrides after either has been done for many keys;
* `Overrides.Sorted` — they stay in the order of their keys;
* `Table.foldl_addOverride`, `Table.foldl_removeOverride` — many keys are mapped or unmapped;
* `Table.resolveAcross_of_some`, `Table.resolveAcross_of_none` — an override wins over the slot;
* `Table.groupNamed?_utf8` — the group of a name.
-/

namespace ShardProxy

namespace Text

theorem toByteArray_utf8 (s : String) : (utf8 s).toByteArray = s.toByteArray :=
  String.utf8Encode_toList

/-- Different texts have different bytes. -/
theorem utf8_inj {s t : String} : utf8 s = utf8 t ↔ s = t := by
  constructor
  · intro h
    apply String.toByteArray_inj.mp
    rw [← toByteArray_utf8, ← toByteArray_utf8, h]
  · rintro rfl
    rfl

end Text

namespace Routing

namespace Overrides

variable {key other : Bytes} {g : GroupId}

theorem lookup_place_self (key : Bytes) (g : GroupId) (entries : List (Bytes × GroupId)) :
    (place key g entries).lookup key = some g := by
  induction entries with
  | nil => exact List.lookup_cons_self
  | cons e rest ih =>
      unfold place
      split
      · exact List.lookup_cons_self
      · exact List.lookup_cons_self
      · rename_i hafter
        have hne : (key == e.1) = false := by
          apply beq_false_of_ne
          intro hkey
          have hself : compare key key = .eq := Std.ReflCmp.compare_self
          rw [hkey] at hafter hself
          rw [hself] at hafter
          cases hafter
        rw [List.lookup_cons, hne]
        exact ih

theorem lookup_place_ne (h : other ≠ key) (g : GroupId) (entries : List (Bytes × GroupId)) :
    (place key g entries).lookup other = entries.lookup other := by
  have hne : (other == key) = false := beq_false_of_ne h
  induction entries with
  | nil =>
      unfold place
      rw [List.lookup_cons, hne]
  | cons e rest ih =>
      unfold place
      split
      · rw [List.lookup_cons, hne]
      · rename_i hsame
        have hkey : key = e.1 := Std.LawfulEqCmp.eq_of_compare hsame
        rw [List.lookup_cons, List.lookup_cons, ← hkey, hne]
      · rw [List.lookup_cons, List.lookup_cons, ih]

/-- A key has the group that it was mapped to last. -/
@[simp] theorem get?_insert_self (o : Overrides) (key : Bytes) (g : GroupId) :
    (o.insert key g).get? key = some g :=
  lookup_place_self key g o.entries

theorem get?_insert_ne (o : Overrides) (h : other ≠ key) (g : GroupId) :
    (o.insert key g).get? other = o.get? other :=
  lookup_place_ne h g o.entries

@[simp] theorem get?_erase_self (o : Overrides) (key : Bytes) : (o.erase key).get? key = none := by
  refine List.lookup_eq_none_iff.mpr fun e he => ?_
  have hne : e.1 ≠ key := by simpa using (List.mem_filter.mp he).2
  simpa using hne.symm

theorem get?_erase_ne (o : Overrides) (h : other ≠ key) :
    (o.erase key).get? other = o.get? other :=
  lookup_filter_ne o.entries h

/-- To take out a key that is not there changes nothing. -/
theorem erase_of_not_contains {o : Overrides} (h : o.contains key = false) : o.erase key = o := by
  have hkey : key ∉ o.entries.map (·.1) := by
    rw [← lookup_isSome, Bool.not_eq_true]
    exact h
  have hall : o.entries.filter (·.1 != key) = o.entries := by
    refine List.filter_eq_self.mpr fun e he => bne_iff_ne.mpr ?_
    rintro rfl
    exact hkey (List.mem_map_of_mem he)
  unfold erase
  rw [hall]

/-- Keys are treated one after the other, each without regard to the others. -/
theorem get?_foldl {f : Overrides → Bytes → Overrides} {v : Option GroupId}
    (hself : ∀ o key, (f o key).get? key = v)
    (hne : ∀ o {key other}, other ≠ key → (f o key).get? other = o.get? other)
    (keys : List Bytes) (o : Overrides) (key : Bytes) :
    (keys.foldl f o).get? key = if key ∈ keys then v else o.get? key := by
  induction keys generalizing o with
  | nil => simp
  | cons first rest ih =>
      rw [List.foldl_cons, ih]
      by_cases hlater : key ∈ rest
      · rw [if_pos hlater, if_pos (List.mem_cons_of_mem _ hlater)]
      · rw [if_neg hlater]
        by_cases hfirst : key = first
        · rw [hfirst, hself, if_pos List.mem_cons_self]
        · rw [hne o hfirst, if_neg (List.not_mem_cons_of_ne_of_not_mem hfirst hlater)]

theorem mem_place {entries : List (Bytes × GroupId)} {e : Bytes × GroupId}
    (h : e ∈ place key g entries) : e = (key, g) ∨ e ∈ entries := by
  induction entries with
  | nil => exact .inl (List.mem_singleton.mp h)
  | cons first rest ih =>
      unfold place at h
      split at h
      · exact List.mem_cons.mp h
      · rcases List.mem_cons.mp h with rfl | hrest
        · exact .inl rfl
        · exact .inr (List.mem_cons_of_mem _ hrest)
      · rcases List.mem_cons.mp h with rfl | hrest
        · exact .inr List.mem_cons_self
        · exact (ih hrest).imp_right (List.mem_cons_of_mem _)

/-! ## Their order -/

/-- The keys ascend, so that each stands once. -/
def Sorted (o : Overrides) : Prop := o.entries.Pairwise fun e e' => compare e.1 e'.1 = .lt

theorem sorted_empty : empty.Sorted := List.Pairwise.nil

theorem pairwise_place {entries : List (Bytes × GroupId)}
    (h : entries.Pairwise fun e e' => compare e.1 e'.1 = .lt) :
    (place key g entries).Pairwise fun e e' => compare e.1 e'.1 = .lt := by
  induction entries with
  | nil => exact List.pairwise_singleton _ _
  | cons e rest ih =>
      obtain ⟨hfirst, hrest⟩ := List.pairwise_cons.mp h
      unfold place
      split
      · rename_i hbefore
        refine List.pairwise_cons.mpr ⟨fun e' he' => ?_, h⟩
        rcases List.mem_cons.mp he' with rfl | he'
        · exact hbefore
        · exact Std.TransCmp.lt_trans hbefore (hfirst e' he')
      · rename_i hsame
        obtain rfl : key = e.1 := Std.LawfulEqCmp.eq_of_compare hsame
        exact List.pairwise_cons.mpr ⟨hfirst, hrest⟩
      · rename_i hafter
        refine List.pairwise_cons.mpr ⟨fun e' he' => ?_, ih hrest⟩
        rcases mem_place he' with rfl | he'
        · exact Std.OrientedCmp.lt_of_gt hafter
        · exact hfirst e' he'

theorem Sorted.insert {o : Overrides} (h : o.Sorted) (key : Bytes) (g : GroupId) :
    (o.insert key g).Sorted :=
  pairwise_place h

theorem Sorted.erase {o : Overrides} (h : o.Sorted) (key : Bytes) : (o.erase key).Sorted :=
  List.Pairwise.filter _ h

theorem Sorted.nodup_keys {o : Overrides} (h : o.Sorted) : (o.entries.map (·.1)).Nodup := by
  unfold List.Nodup
  rw [List.pairwise_map]
  refine h.imp fun {_ e'} hlt heq => ?_
  have hself : compare e'.1 e'.1 = .eq := Std.ReflCmp.compare_self
  rw [heq, hself] at hlt
  cases hlt

end Overrides

namespace Table

variable {t later : Table} {key : Bytes} {g : GroupId}

/-- An override decides whatever the slots are. -/
theorem resolveAcross_of_some (h : t.overrides.get? key = some g) :
    t.resolveAcross later key = some g := by
  unfold resolveAcross
  rw [h]

/-- Without an override the slot decides. -/
theorem resolveAcross_of_none (h : t.overrides.get? key = none) :
    t.resolveAcross later key = (t.slotIndex? key).bind later.ownerAt? := by
  unfold resolveAcross
  rw [h]

/-- The override of a key if it has one, and else the owner of its slot. -/
theorem resolve_eq (t : Table) (key : Bytes) :
    t.resolve key = (t.overrides.get? key).or ((t.slotIndex? key).bind t.ownerAt?) := by
  unfold resolve
  cases hkey : t.overrides.get? key with
  | none => exact resolveAcross_of_none hkey
  | some g => exact resolveAcross_of_some hkey

/-- Without an override for the key there is nothing to take out. -/
theorem removeOverride_getD (t : Table) (key : Bytes) :
    (t.removeOverride key).getD t = { t with overrides := t.overrides.erase key } := by
  unfold removeOverride
  split
  · rfl
  · rename_i hnone
    rw [Overrides.erase_of_not_contains (by simpa using hnone)]
    rfl

/-- Overrides are edited one key after the other, and the rest of the table stays. -/
theorem foldl_overrides (edit : Table → Bytes → Table) (f : Overrides → Bytes → Overrides)
    (hedit : ∀ t key, edit t key = { t with overrides := f t.overrides key }) (keys : List Bytes)
    (t : Table) : keys.foldl edit t = { t with overrides := keys.foldl f t.overrides } := by
  induction keys generalizing t with
  | nil => rfl
  | cons key keys ih => rw [List.foldl_cons, ih, hedit, List.foldl_cons]

theorem foldl_addOverride (keys : List Bytes) (g : GroupId) (t : Table) :
    keys.foldl (·.addOverride · g) t =
      { t with overrides := keys.foldl (·.insert · g) t.overrides } :=
  foldl_overrides (·.addOverride · g) (·.insert · g) (fun _ _ => rfl) keys t

theorem foldl_removeOverride (keys : List Bytes) (t : Table) :
    keys.foldl (fun t key => (t.removeOverride key).getD t) t =
      { t with overrides := keys.foldl .erase t.overrides } :=
  foldl_overrides _ _ removeOverride_getD keys t

/-- A name is the name of the first group that is so named. -/
theorem groupNamed?_utf8 (t : Table) (name : String) :
    t.groupNamed? (Text.utf8 name) = t.shards.findIdx? (·.name == name) := by
  unfold groupNamed?
  congr 1
  funext s
  rw [Bool.eq_iff_iff, beq_iff_eq, beq_iff_eq, Text.utf8_inj]

end Table

end Routing

end ShardProxy
