import ShardProxy.Proofs.Proxy.Folding
import ShardProxy.Proofs.Routing.Shape
import ShardProxy.Proofs.Wire.Grammar

/-!
# What mapping commands change

A mapping command is accepted if its tokens name what it needs: a group, a slot, some keys. It then
changes what they name and nothing besides; if it is not accepted it changes nothing at all.

* `Proxy.NamesGroup`, `Proxy.NamesSlot` — what tokens name, said without how it is looked up;
* `Table.SlotGiven`, `Table.Reroutes` — how a table may differ afterwards, in its slots and in where
  keys lead;
* `Outcome.Decides` — the answer says which of the two it is;
* `Proxy.mapping_commands` — the three commands.
-/

namespace ShardProxy

open Text (utf8)
open Wire (Message Spells)

namespace Routing

namespace Table

variable {t t' : Table} {i : Nat} {g : GroupId} {key name : Bytes}

/-! ## Tables before and after -/

/-- The first group of a name. -/
structure FirstNamed (t : Table) (name : Bytes) (g : GroupId) : Prop where
  named : ∃ s, t.shards[g]? = some s ∧ utf8 s.name = name
  first : ∀ h < g, ∀ s, t.shards[h]? = some s → utf8 s.name ≠ name

theorem groupNamed?_eq_some_iff : t.groupNamed? name = some g ↔ t.FirstNamed name g := by
  unfold groupNamed?
  rw [List.findIdx?_eq_some_iff_getElem]
  constructor
  · rintro ⟨hlt, hnamed, hfirst⟩
    refine ⟨⟨_, List.getElem?_eq_getElem hlt, beq_iff_eq.mp hnamed⟩, fun h hh s hs => ?_⟩
    obtain ⟨hlt', rfl⟩ := List.getElem?_eq_some_iff.mp hs
    simpa using hfirst h hh
  · rintro ⟨⟨s, hs, hnamed⟩, hfirst⟩
    obtain ⟨hlt, rfl⟩ := List.getElem?_eq_some_iff.mp hs
    refine ⟨hlt, beq_iff_eq.mpr hnamed, fun h hh => ?_⟩
    simpa using hfirst h hh _ (List.getElem?_eq_getElem (hh.trans hlt))

/-- One slot is given to a group, and nothing else is touched. -/
structure SlotGiven (t t' : Table) (i : Nat) (g : GroupId) : Prop where
  alike : Alike t t'
  overrides : t'.overrides = t.overrides
  owner : t'.ownerAt? i = some g
  others : ∀ j ≠ i, t'.ownerAt? j = t.ownerAt? j

/-- The keys that are named lead where they should, and all others where they did. -/
structure Reroutes (t t' : Table) (named : Bytes → Prop) (home : Bytes → Option GroupId) :
    Prop where
  moved : ∀ key, named key → t'.resolve key = home key
  others : ∀ key, ¬ named key → t'.resolve key = t.resolve key

theorem SlotGiven.of_setSlot (h : t.setSlot i g = some t') : t.SlotGiven t' i g := by
  obtain ⟨hi, rfl⟩ := setSlot_eq_some_iff.mp h
  refine ⟨⟨rfl, rfl, rfl, Slots.positions_assign _ _ _⟩, rfl,
    Slots.ownerAt?_assign_of_mem g hi (List.mem_singleton_self i), fun j hj => ?_⟩
  exact Slots.ownerAt?_assign_of_not_mem _ _ (by simpa using hj)

/-- With a slot go the keys in it, except those with an override. -/
theorem SlotGiven.reroutes (h : t.SlotGiven t' i g) :
    t.Reroutes t' (fun key => t.overrides.get? key = none ∧ t.slotIndex? key = some i)
      fun _ => some g := by
  constructor
  · rintro key ⟨hkey, hslot⟩
    rw [resolve_eq, h.overrides, hkey, h.alike.slotIndex?, hslot]
    exact h.owner
  · intro key hother
    -- an override decides before the slot is looked at
    rw [resolve_eq, resolve_eq, h.overrides, h.alike.slotIndex?]
    cases hkey : t.overrides.get? key with
    | some _ => rfl
    | none =>
        cases hslot : t.slotIndex? key with
        | none => rfl
        | some j =>
            have hj : j ≠ i := by
              rintro rfl
              exact hother ⟨hkey, hslot⟩
            exact h.others j hj

/-- The keys that are treated get one override, or none and so lead to their slots. -/
theorem reroutes_foldl {f : Overrides → Bytes → Overrides} {v : Option GroupId}
    (hself : ∀ o key, (f o key).get? key = v)
    (hne : ∀ o {key other}, other ≠ key → (f o key).get? other = o.get? other)
    (keys : List Bytes) (t : Table) :
    t.Reroutes { t with overrides := keys.foldl f t.overrides } (· ∈ keys)
      fun key => v.or ((t.slotIndex? key).bind t.ownerAt?) := by
  constructor
  · intro key hkey
    rw [resolve_eq, Overrides.get?_foldl hself hne, if_pos hkey]
    rfl
  · intro key hkey
    rw [resolve_eq, resolve_eq, Overrides.get?_foldl hself hne, if_neg hkey]
    rfl

end Table

end Routing

namespace Proxy

open Routing

variable {t t' : Table} {m : Message} {o : Outcome}

/-! ## What tokens name -/

/-- A token is the name of a group. Of groups with one name it means the first. -/
def NamesGroup (t : Table) (m : Message) (i : Nat) (g : GroupId) : Prop :=
  ∃ name, m.token? i = some name ∧ t.FirstNamed name g

/-- A token spells the number of a slot. Numbers have 64 bits: of a table with more than `2 ^ 63`
slots the last ones have no name. -/
def NamesSlot (t : Table) (m : Message) (i slot : Nat) : Prop :=
  ∃ text, m.token? i = some text ∧ Spells text slot ∧ slot < t.slotCount ∧ slot < 2 ^ 63

theorem groupToken?_eq_some_iff {i : Nat} {g : GroupId} :
    groupToken? t m i = some g ↔ NamesGroup t m i g := by
  unfold groupToken? NamesGroup
  rw [Option.bind_eq_some_iff]
  simp only [Table.groupNamed?_eq_some_iff]

theorem slotToken?_eq_some_iff {i slot : Nat} :
    slotToken? m i = some slot ↔
      ∃ text, m.token? i = some text ∧ Spells text slot ∧ slot < 2 ^ 63 := by
  unfold slotToken?
  rw [Option.bind_eq_some_iff]
  constructor
  · rintro ⟨n, hnumber, hslot⟩
    obtain ⟨text, htext, hnumber⟩ := Option.bind_eq_some_iff.mp hnumber
    split at hslot
    · cases hslot
    · -- a number that is not negative is read as the same natural number
      rename_i hsign
      cases hslot
      have hn : ((n.toInt.toNat : Nat) : Int) = n.toInt := Int.toNat_of_nonneg (Int.not_lt.mp hsign)
      have hlt := n.toInt_lt
      exact ⟨text, htext, hn.symm ▸ Wire.number?_eq_some_iff.mp hnumber, by omega⟩
  · rintro ⟨text, htext, hspells, hlt⟩
    have hn : (Int64.ofNat slot).toInt = slot := Int64.toInt_ofNat_of_lt hlt
    refine ⟨Int64.ofNat slot, ?_, ?_⟩
    · rw [htext, Option.bind_some, Wire.number?_eq_some_iff, hn]
      exact hspells
    · rw [hn, if_neg (by omega), Int.toNat_natCast]

/-- A slot that can be set is one that there is. -/
theorem namesSlot_of_setSlot {i : Nat} {g : GroupId} (hslot : slotToken? m 1 = some i)
    (hset : t.setSlot i g = some t') : NamesSlot t m 1 i := by
  obtain ⟨text, htext, hspells, hfits⟩ := slotToken?_eq_some_iff.mp hslot
  exact ⟨text, htext, hspells, (Table.setSlot_eq_some_iff.mp hset).1, hfits⟩

/-! ## Answers -/

/-- A command is accepted exactly if its tokens name what it needs. Then there is a new table, which
differs in the way that it should, and every proxy that takes the outcome has it from then on;
otherwise nothing changes. -/
structure Outcome.Decides (o : Outcome) (named : Prop) (does : Table → Prop) : Prop where
  ok_iff : o.reply = Wire.Reply.ok ↔ named
  changed : o.reply = Wire.Reply.ok →
    ∃ t', o.changed = some t' ∧ does t' ∧ ∀ p : Proxy, (p.afterAdmin o).table = t'
  unchanged : o.reply ≠ Wire.Reply.ok → o.changed = none ∧ ∀ p : Proxy, p.afterAdmin o = p

theorem Outcome.Leads.decides {next : Table → Prop} {named : Prop} {does : Table → Prop}
    (h : o.Leads next) (hnamed : named ↔ ∃ t', next t') (hdoes : ∀ t', next t' → does t') :
    o.Decides named does := by
  cases h with
  | accepted hnext =>
      exact ⟨iff_of_true rfl (hnamed.mpr ⟨_, hnext⟩),
        fun _ => ⟨_, rfl, hdoes _ hnext, fun _ => rfl⟩, fun h => absurd rfl h⟩
  | refused _ hreply hnone =>
      have hunnamed : ¬ named := fun h => (hnamed.mp h).elim hnone
      exact ⟨iff_of_false hreply hunnamed, fun h => absurd h hreply, fun _ => ⟨rfl, fun _ => rfl⟩⟩

theorem decides_hashMapping (t : Table) (m : Message) :
    (hashMapping t m).Decides
      (m.tokenCount = 3 ∧ (∃ g, NamesGroup t m 2 g) ∧ ∃ i, NamesSlot t m 1 i)
      fun t' => ∃ g i, NamesGroup t m 2 g ∧ NamesSlot t m 1 i ∧ t.SlotGiven t' i g ∧
        t.Reroutes t' (fun key => t.overrides.get? key = none ∧ t.slotIndex? key = some i)
          fun _ => some g := by
  refine (leads_hashMapping t m).decides ⟨?_, ?_⟩ ?_
  · rintro ⟨hcount, ⟨g, hgroup⟩, i, text, htext, hspells, hlt, hfits⟩
    exact ⟨_, hcount, g, i, groupToken?_eq_some_iff.mpr hgroup,
      slotToken?_eq_some_iff.mpr ⟨text, htext, hspells, hfits⟩,
      Table.setSlot_eq_some_iff.mpr ⟨hlt, rfl⟩⟩
  · rintro ⟨t', hcount, g, i, hgroup, hslot, hset⟩
    exact ⟨hcount, ⟨g, groupToken?_eq_some_iff.mp hgroup⟩, i, namesSlot_of_setSlot hslot hset⟩
  · rintro t' ⟨_, g, i, hgroup, hslot, hset⟩
    have hgiven : t.SlotGiven t' i g := .of_setSlot hset
    exact ⟨g, i, groupToken?_eq_some_iff.mp hgroup, namesSlot_of_setSlot hslot hset, hgiven,
      hgiven.reroutes⟩

theorem decides_addKeyMapping (t : Table) (m : Message) :
    (addKeyMapping t m).Decides
      (3 ≤ m.tokenCount ∧ ∃ g, NamesGroup t m 1 g)
      fun t' => t' = { t with overrides := t'.overrides } ∧ ∃ g, NamesGroup t m 1 g ∧
        t.Reroutes t' (· ∈ m.tokens.drop 2) fun _ => some g := by
  refine (leads_addKeyMapping t m).decides ⟨?_, ?_⟩ ?_
  · rintro ⟨hcount, g, hgroup⟩
    exact ⟨_, hcount, g, groupToken?_eq_some_iff.mpr hgroup, rfl⟩
  · rintro ⟨t', hcount, g, hgroup, _⟩
    exact ⟨hcount, g, groupToken?_eq_some_iff.mp hgroup⟩
  · rintro t' ⟨_, g, hgroup, rfl⟩
    rw [Table.foldl_addOverride]
    refine ⟨rfl, g, groupToken?_eq_some_iff.mp hgroup, ?_⟩
    exact Table.reroutes_foldl (v := some g) (fun o key => o.get?_insert_self key g)
      (fun o _ _ h => o.get?_insert_ne h g) _ t

theorem decides_delKeyMapping (t : Table) (m : Message) :
    (delKeyMapping t m).Decides
      (2 ≤ m.tokenCount)
      fun t' => t' = { t with overrides := t'.overrides } ∧
        t.Reroutes t' (· ∈ m.tokens.drop 1) fun key => (t.slotIndex? key).bind t.ownerAt? := by
  refine (leads_delKeyMapping t m).decides ⟨?_, ?_⟩ ?_
  · exact fun hcount => ⟨_, hcount, rfl⟩
  · exact fun ⟨_, hcount, _⟩ => hcount
  · rintro t' ⟨_, rfl⟩
    rw [Table.foldl_removeOverride]
    refine ⟨rfl, ?_⟩
    exact Table.reroutes_foldl (v := none) (fun o key => o.get?_erase_self key)
      (fun o _ _ h => o.get?_erase_ne h) _ t

/-- **Mapping commands change what they name, or nothing.** For every table and every message:

* a slot is mapped exactly if there are three tokens, the third names a group and the second spells
  the number of a slot. Only the owner of that slot changes, to the first group of the name, and
  with it go the keys in the slot that have no override;
* keys are mapped exactly if there are three tokens or more and the second names a group. The slots
  stay, and the keys that follow lead to that group;
* mappings are taken away exactly if there are two tokens or more. The slots stay, and the keys that
  follow lead where their slots do.

Each time all other keys lead where they did. Any other answer says that nothing has changed, and
the proxy is what it was. -/
theorem mapping_commands (t : Table) (m : Message) :
    (hashMapping t m).Decides
      (m.tokenCount = 3 ∧ (∃ g, NamesGroup t m 2 g) ∧ ∃ i, NamesSlot t m 1 i)
      (fun t' => ∃ g i, NamesGroup t m 2 g ∧ NamesSlot t m 1 i ∧ t.SlotGiven t' i g ∧
        t.Reroutes t' (fun key => t.overrides.get? key = none ∧ t.slotIndex? key = some i)
          fun _ => some g) ∧
    (addKeyMapping t m).Decides
      (3 ≤ m.tokenCount ∧ ∃ g, NamesGroup t m 1 g)
      (fun t' => t' = { t with overrides := t'.overrides } ∧ ∃ g, NamesGroup t m 1 g ∧
        t.Reroutes t' (· ∈ m.tokens.drop 2) fun _ => some g) ∧
    (delKeyMapping t m).Decides
      (2 ≤ m.tokenCount)
      fun t' => t' = { t with overrides := t'.overrides } ∧
        t.Reroutes t' (· ∈ m.tokens.drop 1) fun key => (t.slotIndex? key).bind t.ownerAt? :=
  ⟨decides_hashMapping t m, decides_addKeyMapping t m, decides_delKeyMapping t m⟩

/-- A number may have a sign and zeros before it. -/
example : (hashMapping sole.table (asked ["HASHMAPPING", "+00", "g0"])).reply = Wire.Reply.ok := by
  decide

end Proxy

end ShardProxy
