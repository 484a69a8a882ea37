/-
  The values that completion records.

  Completion records the value that a family has been resolved to, and adds a row with that
  value; but a row that is there already keeps its own value.

  * `find?_append_missing`: after completion the first row with a required key is the one of
    the table, or else the row that is added;
  * `recorded_of_complete`: what is recorded is the text of the resolved value, and whether
    this is the value of the row that counts.
-/
import PrimaryEnergy.Proofs.Completion.Supply

namespace PrimaryEnergy

namespace Factor

variable {α : Type}

theorem key_of_find? {rows : List (Factor α)} {k : Key} {f : Factor α}
    (h : find? rows k.pattern = some f) : f.key = k := by
  unfold find? at h
  have hm := List.find?_some h
  exact (matches_pattern.1 hm).symm

/-- With keys of their own, rows are found by their keys. -/
theorem find?_eq_some_of_nodup {rows : List (Factor α)} (hn : (rows.map (·.key)).Nodup)
    {f : Factor α} (hf : f ∈ rows) : find? rows f.key.pattern = some f := by
  obtain ⟨g, hg⟩ : ∃ g, find? rows f.key.pattern = some g := by
    rw [← Option.isSome_iff_exists, isSome_find?, has_pattern_iff]
    exact List.mem_map_of_mem hf
  rw [hg, List.inj_on_of_nodup_map hn hf (List.mem_of_find?_eq_some hg) (key_of_find? hg).symm]

end Factor

namespace Completion

variable {rows : List (Factor Float)} {values defaults : PerFamily (Pair Float)}

theorem nodup_keys_missing : ((missing rows values defaults).map (·.key)).Nodup := by
  have hsub : ((missing rows values defaults).map (·.key)).Sublist requiredKeys := by
    rw [← map_key_requirements rows values defaults, missing, owed, List.map_map]
    exact List.filter_sublist.map _
  exact nodup_requiredKeys.sublist hsub

/-- A row that is missing has a key of its own, also where only a part of it is looked for. -/
theorem key_not_mem_of_mem_missing {f : Factor Float} (hf : f ∈ missing rows values defaults) :
    f.key ∉ rows.map (·.key) := by
  obtain ⟨q, hq, hm, rfl⟩ := mem_missing.1 hf
  intro hk
  obtain ⟨g, hg, hgk⟩ := List.mem_map.1 hk
  have hmet : q.isMet rows = true :=
    Factor.has_iff.2 ⟨g, hg, hgk ▸ (matches_of_mem_requirements q hq).1⟩
  exact Bool.false_ne_true (hm.symm.trans hmet)

/-- The first row with a required key is the one that was there, or else the required one. -/
theorem find?_append_missing {row : Factor Float}
    (h : .own row ∈ requirements rows values defaults) :
    Factor.find? (rows ++ missing rows values defaults) row.key.pattern =
      some ((Factor.find? rows row.key.pattern).getD row) := by
  rw [Factor.find?_append]
  cases hr : Factor.find? rows row.key.pattern with
  | some f => rfl
  | none =>
    -- nothing stands in for a row that is looked for by its own key, so it is added
    have hmet : (Requirement.own row).isMet rows = false := by
      rw [Requirement.isMet, ← Factor.isSome_find?]
      exact congrArg Option.isSome hr
    have hrow : row ∈ missing rows values defaults :=
      mem_missing.2 ⟨.own row, h, hmet, rfl⟩
    exact Factor.find?_eq_some_of_nodup nodup_keys_missing hrow

/-- One of the required rows has the key and the value of a family. -/
theorem exists_family_requirement (rows : List (Factor Float))
    (values defaults : PerFamily (Pair Float)) (i : Family) :
    ∃ row, .own row ∈ requirements rows values defaults ∧ row.key = i.key ∧
      row.value = values.get i := by
  cases i with
  | cogenToGrid =>
    refine ⟨producedRow rows values defaults .electricity .cogeneration .toGrid, ?_, rfl, rfl⟩
    simp [requirements, laterRequirements, exported, exportRequirements]
  | cogenToOther =>
    refine ⟨producedRow rows values defaults .electricity .cogeneration .toOtherUses, ?_, rfl, rfl⟩
    simp [requirements, laterRequirements, exported, exportRequirements]
  | district1 =>
    refine ⟨district1Supply values.district1, ?_, rfl, rfl⟩
    simp [requirements, laterRequirements]
  | district2 =>
    refine ⟨district2Supply values.district2, ?_, rfl, rfl⟩
    simp [requirements, laterRequirements]

end Completion

namespace FactorTable

open Completion

variable {t u : FactorTable Float} {o : Overrides} {defaults : PerFamily (Pair Float)}

/-- The row that counts for a family. -/
def familyRow? (t : FactorTable Float) (i : Family) : Option (Factor Float) :=
  Factor.find? t.rows i.key.pattern

/-- The metadata tell the value of the row that counts for a family. -/
def TellsValue (t : FactorTable Float) (i : Family) : Prop :=
  ∃ f, t.familyRow? i = some f ∧ t.getMeta? i.metaKey = some f.value.metaText

/-- The row of a family is the one that was there, or else it has the resolved value. -/
theorem familyRow?_of_complete (h : t.complete o defaults false = .ok u) (i : Family) :
    ∃ f, u.familyRow? i = some f ∧ (∀ g, t.familyRow? i = some g → f = g) ∧
      (t.familyRow? i = none → f.value = (t.userValues o defaults).get i) := by
  obtain ⟨-, rfl⟩ := complete_eq_ok_iff.1 h
  obtain ⟨row, hrow, hk, hv⟩ :=
    exists_family_requirement t.rows (t.userValues o defaults) defaults i
  have hfind := find?_append_missing hrow
  rw [hk] at hfind
  refine ⟨_, hfind, fun g hg => ?_, fun hn => ?_⟩
  · rw [familyRow?] at hg
    rw [hg, Option.getD_some]
  · rw [familyRow?] at hn
    rw [hn, Option.getD_none, hv]

/-- A value that is neither given nor recorded is that of the first row with the pattern. -/
theorem userValues_of_row {i : Family} (ho : o.get i = none)
    (hm : t.metadata.pair? i.metaKey = none) {f : Factor Float}
    (hf : Factor.find? t.rows i.pattern = some f) : (t.userValues o defaults).get i = f.value := by
  simp [userValues, resolve, Family.resolve, ho, hm, hf]

/-- **What completion records of a family** is the text of its resolved value.  The row that
    counts has this value only if it is new; one that was there stays, and whether its value is
    told hangs on its text.  It is told if nothing is given or recorded for the family and the
    row is the one that its value is taken from. -/
theorem recorded_of_complete (h : t.complete o defaults false = .ok u) (i : Family) :
    u.getMeta? i.metaKey = some ((t.userValues o defaults).get i).metaText ∧
    (∃ f, u.familyRow? i = some f ∧ (∀ g, t.familyRow? i = some g → f = g) ∧
      (t.familyRow? i = none → f.value = (t.userValues o defaults).get i)) ∧
    (u.TellsValue i ↔ ∀ g, t.familyRow? i = some g →
      g.value.metaText = ((t.userValues o defaults).get i).metaText) ∧
    (o.get i = none → t.metadata.pair? i.metaKey = none →
      Factor.find? t.rows i.pattern = t.familyRow? i → u.TellsValue i) := by
  have hmeta : u.getMeta? i.metaKey = some ((t.userValues o defaults).get i).metaText :=
    records_of_complete h i
  obtain ⟨f, hf, hold, hnew⟩ := familyRow?_of_complete h i
  have htells : u.TellsValue i ↔ ∀ g, t.familyRow? i = some g →
      g.value.metaText = ((t.userValues o defaults).get i).metaText := by
    constructor
    · rintro ⟨f', hf', ht⟩ g hg
      obtain rfl : f = f' := Option.some.inj (hf.symm.trans hf')
      rw [← hold g hg]
      exact Option.some.inj (ht.symm.trans hmeta)
    · intro hg
      refine ⟨f, hf, ?_⟩
      cases ht : t.familyRow? i with
      | none => rw [hmeta, hnew ht]
      | some g => rw [hmeta, hold g ht, hg g ht]
  refine ⟨hmeta, ⟨f, hf, hold, hnew⟩, htells, fun ho hm hrow => htells.2 fun g hg => ?_⟩
  rw [userValues_of_row ho hm (hrow.trans hg)]

/-- Electricity from the grid, and a district network with a factor of its own. -/
def ownDistrict : FactorTable Float :=
  ⟨[], [⟨gridSupply .electricity, ⟨1, 2⟩, ""⟩, ⟨gridSupply .district1, ⟨0, 1⟩, ""⟩]⟩

/-- Another value for the district network. -/
def otherDistrict : Overrides := { Overrides.none with district1 := some ⟨1, 0⟩ }

theorem verdict_ownDistrict : verdict ownDistrict.keys = none := by decide

theorem recorded_of_complete_ownDistrict :
    ∃ u, ownDistrict.complete otherDistrict (.of fun _ => ⟨0, 2⟩) false = .ok u ∧
      u.getMeta? Family.district1.metaKey = some (Pair.metaText ⟨1, 0⟩) ∧
      u.familyRow? .district1 = some ⟨gridSupply .district1, ⟨0, 1⟩, ""⟩ ∧
      u.TellsValue .cogenToGrid := by
  obtain ⟨u, hu⟩ :=
    exists_complete_eq_ok verdict_ownDistrict otherDistrict (.of fun _ => ⟨0, 2⟩) false
  obtain ⟨hmeta, ⟨f, hf, hold, -⟩, -⟩ := recorded_of_complete hu .district1
  refine ⟨u, hu, hmeta, hf.trans (congrArg some (hold _ rfl)), ?_⟩
  exact (recorded_of_complete hu .cogenToGrid).2.2.2 rfl rfl rfl

/-- The metadata need not tell the value of the row that counts. -/
theorem not_tellsValue_of_complete :
    ¬ ∀ (t u : FactorTable Float) (o : Overrides) (defaults : PerFamily (Pair Float)),
      t.complete o defaults false = .ok u → ∀ i, u.TellsValue i := by
  intro h
  obtain ⟨u, hu⟩ :=
    exists_complete_eq_ok verdict_ownDistrict otherDistrict (.of fun _ => ⟨0, 2⟩) false
  obtain ⟨f, hf, ht⟩ := h _ _ _ _ hu .district1
  obtain ⟨f', hf', hold, -⟩ := familyRow?_of_complete hu .district1
  obtain rfl : f = ⟨gridSupply .district1, ⟨0, 1⟩, ""⟩ :=
    (Option.some.inj (hf.symm.trans hf')).trans (hold _ rfl)
  have htext : Pair.metaText ⟨1, 0⟩ = Pair.metaText ⟨0, 1⟩ :=
    Option.some.inj ((records_of_complete hu .district1).symm.trans ht)
  exact absurd htext (by decide +kernel)

end FactorTable

end PrimaryEnergy
