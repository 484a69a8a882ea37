/-
  Repeated keys, and what completion makes of them.

  Completion only adds rows with keys that no row has, although some of its rules look for a part
  of a key; and it removes rows by their keys.

  * `checkKeys_eq_error_iff`: a strict check fails if any keys are repeated;
  * `repeatedKeys_keep` and `repeatedKeys_filledUp`: the repeated keys of a table of which rows
    are chosen, and of one to which the rows are added that it lacks;
  * `repeatedKeys_of_fix`: so completion repeats no key.
-/
import PrimaryEnergy.Factor.Uniqueness
import PrimaryEnergy.Proofs.Completion.Record
import PrimaryEnergy.Proofs.Distinct
import PrimaryEnergy.Proofs.Factor.Pruning

namespace PrimaryEnergy

namespace FactorTable

open Completion

theorem checkKeys_eq_error_iff {α : Type} {t : FactorTable α} {strict : Bool}
    {e : DuplicatedKeys} :
    t.checkKeys strict = .error e ↔ strict = true ∧ t.repeatedKeys ≠ [] ∧ e = ⟨t.repeatedKeys⟩ := by
  unfold checkKeys
  split
  · rename_i h
    obtain ⟨hstrict, hsome⟩ := Bool.and_eq_true_iff.1 h
    rw [Except.error.injEq, eq_comm]
    exact ⟨fun he => ⟨hstrict, by simpa using hsome, he⟩, fun he => he.2.2⟩
  · rename_i h
    refine ⟨nofun, fun ⟨hstrict, hsome, _⟩ => absurd ?_ h⟩
    simp [hstrict, hsome]

theorem repeatedKeys_keep {α : Type} (test : Factor.Key → Bool) (t : FactorTable α) :
    (t.keep test).repeatedKeys = t.repeatedKeys.filter test := by
  have hkeys : (t.keep test).repeatedKeys = repeated (t.keep test).keys := rfl
  rw [hkeys, keys_keep, repeated_filter]
  rfl

/-- The rows that a table lacks repeat no key. -/
theorem repeatedKeys_filledUp (t : FactorTable Float) (values defaults : PerFamily (Pair Float)) :
    (t.filledUp values defaults).repeatedKeys = t.repeatedKeys := by
  have hnew : ∀ k ∈ (missing t.rows values defaults).map (·.key), k ∉ t.rows.map (·.key) :=
    List.forall_mem_map.2 fun f hf => key_not_mem_of_mem_missing hf
  rw [repeatedKeys, filledUp, List.map_append, repeated_append nodup_keys_missing hnew]
  rfl

/-- **Repeated keys are found exactly, and completion repeats none.**  They are listed once each, in
    the order of their first occurrence; a strict check fails just if there are any, and names them.
    A completed table has those of the table that it is made of, unless their rows are removed. -/
theorem repeatedKeys_of_fix (t : FactorTable Float) :
    ListsRepeated t.keys t.repeatedKeys ∧
    (∀ strict e, t.checkKeys strict = .error e ↔
      strict = true ∧ t.repeatedKeys ≠ [] ∧ e = ⟨t.repeatedKeys⟩) ∧
    ∀ values defaults strip u, t.fix values defaults strip = .ok u →
      u.repeatedKeys =
        if strip then t.repeatedKeys.filter (·.dest != .toOtherUses) else t.repeatedKeys := by
  refine ⟨listsRepeated_repeated _, fun strict e => checkKeys_eq_error_iff, ?_⟩
  intro values defaults strip u h
  obtain ⟨-, rfl⟩ := fix_eq_ok_iff.1 h
  have hfilled := repeatedKeys_filledUp t values defaults
  cases strip with
  | false => exact hfilled
  | true =>
    have hkeep : (t.filledUp values defaults).stripped true =
        (t.filledUp values defaults).keep (·.dest != .toOtherUses) := rfl
    rw [hkeep, repeatedKeys_keep, hfilled, if_pos rfl]

/-- Electricity and gas from the grid, and electricity exported to other uses, each twice. -/
def twice : FactorTable Float :=
  ⟨[], [⟨gridSupply .electricity, ⟨0.5, 2⟩, ""⟩, ⟨gridSupply .naturalGas, ⟨0, 1.25⟩, ""⟩,
    ⟨onsiteExport .toOtherUses, ⟨1, 0⟩, ""⟩, ⟨onsiteExport .toOtherUses, ⟨0.5, 0⟩, ""⟩,
    ⟨gridSupply .naturalGas, ⟨0, 1⟩, ""⟩, ⟨gridSupply .electricity, ⟨1, 1⟩, ""⟩]⟩

theorem repeatedKeys_of_fix_twice :
    twice.repeatedKeys =
      [gridSupply .electricity, gridSupply .naturalGas, onsiteExport .toOtherUses] ∧
    twice.checkKeys true = .error ⟨twice.repeatedKeys⟩ ∧
    ∃ u, twice.fix (.of fun _ => ⟨0, 1⟩) (.of fun _ => ⟨0, 2⟩) true = .ok u ∧
      u.repeatedKeys = [gridSupply .electricity, gridSupply .naturalGas] := by
  obtain ⟨-, hcheck, hfix⟩ := repeatedKeys_of_fix twice
  have hkeys : twice.repeatedKeys =
      [gridSupply .electricity, gridSupply .naturalGas, onsiteExport .toOtherUses] := by decide
  have hcompleted : twice.fix (.of fun _ => ⟨0, 1⟩) (.of fun _ => ⟨0, 2⟩) true = .ok _ :=
    fix_of_no_verdict (by decide)
  refine ⟨hkeys, (hcheck true _).2 ⟨rfl, by simp [hkeys], rfl⟩, _, hcompleted, ?_⟩
  rw [hfix _ _ _ _ hcompleted, hkeys]
  decide

end FactorTable

end PrimaryEnergy
