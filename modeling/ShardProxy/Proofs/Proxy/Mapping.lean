import ShardProxy.Proxy.Admin

/-!
# Outcomes of mapping commands

A mapping command looks at its tokens, and then either leads to one new table or is refused with a
fixed reply. Which of the two it is, and to which table, is said here once.

* `MapsSlot`, `MapsKeys`, `UnmapsKeys` — the table that each command leads to, if it leads to one;
* `Outcome.Leads` — an outcome by the tables that the command may lead to;
* `leads_hashMapping`, `leads_addKeyMapping`, `leads_delKeyMapping` — the three commands.
-/

namespace ShardProxy.Proxy

open Routing
open Wire (Message)

variable {t t' : Table} {m : Message} {o : Outcome} {next : Table → Prop}

/-- A group is named, and a slot that there is goes to it. -/
def MapsSlot (t : Table) (m : Message) (t' : Table) : Prop :=
  m.tokenCount = 3 ∧ ∃ g i, groupToken? t m 2 = some g ∧ slotToken? m 1 = some i ∧
    t.setSlot i g = some t'

/-- A group is named, and the keys after it go to it. -/
def MapsKeys (t : Table) (m : Message) (t' : Table) : Prop :=
  3 ≤ m.tokenCount ∧ ∃ g, groupToken? t m 1 = some g ∧
    t' = (m.tokens.drop 2).foldl (·.addOverride · g) t

def UnmapsKeys (t : Table) (m : Message) (t' : Table) : Prop :=
  2 ≤ m.tokenCount ∧ t' = (m.tokens.drop 1).foldl (fun t key => (t.removeOverride key).getD t) t

/-- A command is accepted with a table that it may lead to, and it is refused only if there is none
such. -/
inductive Outcome.Leads (next : Table → Prop) : Outcome → Prop where
  | accepted {t' : Table} : next t' → Leads next (.accepted t')
  | refused {reply : Bytes} : reply ∈ Wire.Reply.all → reply ≠ Wire.Reply.ok →
      (∀ t', ¬ next t') → Leads next (.unchanged reply)

namespace Outcome.Leads

theorem reply_mem (h : o.Leads next) : o.reply ∈ Wire.Reply.all := by
  cases h with
  | accepted => exact (by decide : Wire.Reply.ok ∈ Wire.Reply.all)
  | refused hreply => exact hreply

/-- Where the table changes, it is to one that the command leads to. -/
theorem of_changed (h : o.Leads next) (hchanged : o.changed = some t') : next t' := by
  cases h with
  | accepted hnext =>
      cases hchanged
      exact hnext
  | refused => cases hchanged

end Outcome.Leads

theorem leads_hashMapping (t : Table) (m : Message) :
    (hashMapping t m).Leads (MapsSlot t m) := by
  unfold hashMapping
  split
  · rename_i hcount
    exact .refused (by decide) (by decide) fun t' h => bne_iff_ne.mp hcount h.1
  rename_i hcount
  split
  · rename_i hnone
    refine .refused (by decide) (by decide) fun t' ⟨_, g, i, hgroup, _⟩ => ?_
    rw [hnone] at hgroup
    cases hgroup
  rename_i g hgroup
  split
  · rename_i hnone
    -- the token is no number of a slot, or there is no such slot
    refine .refused (by decide) (by decide) fun t' ⟨_, g', i, hgroup', hslot, hset⟩ => ?_
    obtain rfl : g = g' := Option.some.inj (hgroup.symm.trans hgroup')
    rw [hslot, Option.bind_some, hset] at hnone
    cases hnone
  · rename_i t' hset
    obtain ⟨i, hslot, hset⟩ := Option.bind_eq_some_iff.mp hset
    exact .accepted ⟨by simpa using hcount, g, i, hgroup, hslot, hset⟩

theorem leads_addKeyMapping (t : Table) (m : Message) :
    (addKeyMapping t m).Leads (MapsKeys t m) := by
  unfold addKeyMapping
  split
  · rename_i hcount
    exact .refused (by decide) (by decide) fun t' h =>
      Nat.not_le_of_lt (Nat.lt_succ_of_le hcount) h.1
  rename_i hcount
  split
  · rename_i hnone
    refine .refused (by decide) (by decide) fun t' ⟨_, g, hgroup, _⟩ => ?_
    rw [hnone] at hgroup
    cases hgroup
  · rename_i g hgroup
    exact .accepted ⟨Nat.lt_of_not_le hcount, g, hgroup, rfl⟩

theorem leads_delKeyMapping (t : Table) (m : Message) :
    (delKeyMapping t m).Leads (UnmapsKeys t m) := by
  unfold delKeyMapping
  split
  · rename_i hcount
    exact .refused (by decide) (by decide) fun t' h =>
      Nat.not_le_of_lt (Nat.lt_succ_of_le hcount) h.1
  · rename_i hcount
    exact .accepted ⟨Nat.lt_of_not_le hcount, rfl⟩

end ShardProxy.Proxy
