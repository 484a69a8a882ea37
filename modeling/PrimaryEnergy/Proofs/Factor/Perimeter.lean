/-
  Conversion to the nearby perimeter, and the other stages after completion.

  Conversion rewrites the values of rows and pruning chooses rows by their keys, so neither sees
  what the other does; so does removing the factors for other uses, although it is a part of
  completion.

  * `toNearby_keep`: conversion and every choice of rows by their keys commute;
  * `fix_true` and `stages_of_fix`: removing is the last step of completion, and may be made after
    all stages;
  * `metadata_iterate_toNearby` and `value_iterate_toNearby`: a table that is converted several
    times;
  * `stages_commute`: the stages in either order, and what conversion keeps.
-/
import Mathlib.Algebra.Group.Defs
import Mathlib.Logic.Function.Iterate
import PrimaryEnergy.Factor.Perimeter
import PrimaryEnergy.Proofs.Factor.Pruning
import PrimaryEnergy.Proofs.Metadata

namespace PrimaryEnergy

/-! ## Rows -/

namespace Factor

theorem Key.isNearby_iff {k : Key} : k.isNearby = true ↔
    k.source = .onsite ∨ k.source = .cogeneration ∨ k.carrier ∈ nearbyCarriers := by
  simp [isNearby, or_assoc]

theorem toNearby_of_isNearby {α : Type} [Zero α] [Add α] {f : Factor α}
    (h : f.key.isNearby = true) : f.toNearby = f :=
  if_pos h

variable {α : Type} [AddZeroClass α]

theorem total_toNearby (f : Factor α) : f.toNearby.value.total = f.value.total := by
  unfold toNearby
  split
  · rfl
  · exact zero_add f.value.total

/-- The renewable part is in the other part after the first conversion. -/
theorem value_toNearby_toNearby (f : Factor α) : f.toNearby.toNearby.value = f.toNearby.value := by
  by_cases h : f.key.isNearby = true
  · rw [toNearby_of_isNearby h, toNearby_of_isNearby h]
  · have hvalue : f.toNearby.value = ⟨0, f.value.total⟩ := by rw [toNearby, if_neg h]
    have hdistant : ¬ f.toNearby.key.isNearby = true := by rwa [key_toNearby]
    rw [toNearby, if_neg hdistant, total_toNearby, hvalue]

end Factor

/-! ## Tables -/

namespace FactorTable

section
variable {α β : Type} [Zero α] [Add α]

theorem keys_toNearby (t : FactorTable α) : t.toNearby.keys = t.keys := by
  simp [keys, toNearby]

theorem toNearby_keep (test : Factor.Key → Bool) (t : FactorTable α) :
    (t.keep test).toNearby = t.toNearby.keep test := by
  simp only [keep, toNearby, List.filter_map, Function.comp_def, Factor.key_toNearby]

theorem prune_toNearby (t : FactorTable α) (rows : List (Component β)) :
    t.toNearby.prune rows = (t.prune rows).toNearby := by
  rw [prune_eq_keep, prune_eq_keep, toNearby_keep]

theorem metadata_toNearby (t : FactorTable α) : t.toNearby.metadata =
    t.metadata.set Metadata.perimeterKey Metadata.nearbyPerimeter :=
  rfl

/-- The mark of the perimeter is set once. -/
theorem metadata_iterate_toNearby (n : Nat) (t : FactorTable α) :
    (toNearby^[n + 1] t).metadata = t.toNearby.metadata := by
  induction n with
  | zero => rfl
  | succ n ih =>
    rw [Function.iterate_succ_apply', metadata_toNearby, ih]
    exact Metadata.set_eq_self (Metadata.get?_set _ _ _)

end

theorem value_iterate_toNearby {α : Type} [AddZeroClass α] (n : Nat) (t : FactorTable α) :
    (toNearby^[n + 1] t).rows.map (·.value) = t.toNearby.rows.map (·.value) := by
  induction n generalizing t with
  | zero => rfl
  | succ n ih =>
    rw [Function.iterate_succ_apply, ih]
    simp only [toNearby, List.map_map, Function.comp_def, Factor.value_toNearby_toNearby]

/-! ## The order of the stages -/

variable {β : Type}

theorem fix_true (t : FactorTable Float) (values defaults : PerFamily (Pair Float)) :
    t.fix values defaults true = (t.fix values defaults false).map withoutOtherUses := by
  unfold fix
  split <;> rfl

/-- Factors for other uses may be removed after the other stages. -/
theorem prune_toNearby_withoutOtherUses (t : FactorTable Float) (rows : List (Component β)) :
    t.withoutOtherUses.toNearby.prune rows = (t.toNearby.prune rows).withoutOtherUses := by
  have hkeep (u : FactorTable Float) : u.withoutOtherUses = u.keep (·.dest != .toOtherUses) := rfl
  rw [hkeep, hkeep, toNearby_keep, prune_eq_keep, prune_eq_keep, keep_comm]

/-- Completion may remove the factors for other uses, or they are removed at the end. -/
theorem stages_of_fix {t full : FactorTable Float} {values defaults : PerFamily (Pair Float)}
    (h : t.fix values defaults false = .ok full) (rows : List (Component β)) :
    ∃ stripped, t.fix values defaults true = .ok stripped ∧
      stripped.toNearby.prune rows = (full.toNearby.prune rows).withoutOtherUses ∧
      (stripped.prune rows).toNearby = (full.toNearby.prune rows).withoutOtherUses := by
  have hlast := prune_toNearby_withoutOtherUses full rows
  refine ⟨full.withoutOtherUses, ?_, hlast, ?_⟩
  · rw [fix_true, h]
    rfl
  · rw [← prune_toNearby, hlast]

/-- **The stages after completion commute.**  Conversion and pruning may change places, and the
    factors for other uses may be removed by completion or at the end.  Conversion keeps the keys
    and the rows of the perimeter, marks the table with at most one entry, and in exact
    arithmetic keeps the total of each row and changes no value again. -/
theorem stages_commute (t : FactorTable Float) (rows : List (Component β))
    (values defaults : PerFamily (Pair Float)) :
    t.toNearby.prune rows = (t.prune rows).toNearby ∧
    (∀ full, t.fix values defaults false = .ok full →
      ∃ stripped, t.fix values defaults true = .ok stripped ∧
        stripped.toNearby.prune rows = (full.toNearby.prune rows).withoutOtherUses ∧
        (stripped.prune rows).toNearby = (full.toNearby.prune rows).withoutOtherUses) ∧
    (∀ e, t.fix values defaults false = .error e ↔ t.fix values defaults true = .error e) ∧
    t.toNearby.keys = t.keys ∧
    (∀ (i : Nat) (f : Factor Float), t.rows[i]? = some f →
      f.key.source = .onsite ∨ f.key.source = .cogeneration ∨
        f.key.carrier ∈ Factor.nearbyCarriers →
      t.toNearby.rows[i]? = some f) ∧
    (∀ n, (toNearby^[n + 1] t).getMeta? Metadata.perimeterKey = some Metadata.nearbyPerimeter ∧
      (toNearby^[n + 1] t).metadata.length ≤ t.metadata.length + 1) ∧
    ∀ (α : Type) [AddZeroClass α] (u : FactorTable α),
      u.toNearby.rows.map (·.value.total) = u.rows.map (·.value.total) ∧
      ∀ n, (toNearby^[n + 1] u).rows.map (·.value) = u.toNearby.rows.map (·.value) := by
  refine ⟨prune_toNearby t rows, fun full hfull => stages_of_fix hfull rows, fun e => ?_,
    keys_toNearby t, fun i f hf hin => ?_, fun n => ?_,
    fun α _ u => ⟨?_, fun n => value_iterate_toNearby n u⟩⟩
  · rw [fix_eq_error_iff, fix_eq_error_iff]
  · rw [toNearby, List.getElem?_map, hf, Option.map_some,
      Factor.toNearby_of_isNearby (Factor.Key.isNearby_iff.2 hin)]
  · rw [Table.getMeta?, metadata_iterate_toNearby, metadata_toNearby]
    exact ⟨Metadata.get?_set _ _ _, Metadata.length_set_le _ _ _⟩
  · simp only [toNearby, List.map_map, Function.comp_def, Factor.total_toNearby]

/-- Electricity and gas from the grid and electricity generated on site, with a mark of another
    perimeter. -/
def distantTable : FactorTable Float :=
  ⟨[⟨"CTE_PERIMETRO", "DISTANTE"⟩],
    [⟨Completion.gridSupply .electricity, ⟨0.4, 2⟩, ""⟩,
      ⟨Completion.gridSupply .naturalGas, ⟨0, 1.2⟩, ""⟩,
      ⟨⟨.electricity, .onsite, .supply, .a⟩, ⟨1, 0⟩, ""⟩]⟩

theorem stages_commute_distantTable :
    let values : PerFamily (Pair Float) := .of fun _ => ⟨0, 1⟩
    ∃ full stripped, distantTable.fix values values false = .ok full ∧
      distantTable.fix values values true = .ok stripped ∧
      (stripped.prune [lighting]).toNearby = (full.toNearby.prune [lighting]).withoutOtherUses ∧
      distantTable.toNearby.rows[2]? = some ⟨⟨.electricity, .onsite, .supply, .a⟩, ⟨1, 0⟩, ""⟩ := by
  intro values
  obtain ⟨-, hfix, -, -, hrows, -⟩ := stages_commute distantTable [lighting] values values
  have hfull : distantTable.fix values values false =
      .ok ((distantTable.filledUp values values).stripped false) :=
    fix_of_no_verdict (by decide)
  obtain ⟨stripped, hstripped, -, heq⟩ := hfix _ hfull
  exact ⟨_, stripped, hfull, hstripped, heq, hrows 2 _ rfl (.inl rfl)⟩

end FactorTable

end PrimaryEnergy
