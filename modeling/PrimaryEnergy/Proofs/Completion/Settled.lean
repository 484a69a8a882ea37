/-
  Completed tables under later completion.

  A table is closed if nothing stops completion and nothing is required that is not there; this
  only depends on its keys.  Completion gives a closed table, conversion to the nearby perimeter
  keeps it closed, and of a closed table completion changes the recorded values only.

  * `isClosed_of_fix` and `IsClosed.of_keys`: which tables are closed;
  * `IsClosed.complete_eq`: completion of a closed table only records values;
  * `changesFirst_recordValues`: these are the first values of the families;
  * `settled_of_completion`: what later completion does to a completed table.
-/
import PrimaryEnergy.Proofs.Completion.Record
import PrimaryEnergy.Proofs.Factor.Perimeter
import PrimaryEnergy.Proofs.Metadata

namespace PrimaryEnergy

namespace FactorTable

open Completion

variable {t t₀ u : FactorTable Float} {values defaults : PerFamily (Pair Float)} {o : Overrides}

/-! ## Closed tables -/

/-- Nothing stops completion, and whatever is required is there. -/
structure IsClosed (t : FactorTable Float) : Prop where
  passes : verdict t.keys = none
  meets : ∀ (rows : List (Factor Float)) (values defaults : PerFamily (Pair Float)),
    ∀ q ∈ requirements rows values defaults, q.isMet t.rows = true

/-- Completion that removes nothing gives a closed table. -/
theorem isClosed_of_fix (h : t₀.fix values defaults false = .ok t) : t.IsClosed := by
  obtain ⟨hv, rfl⟩ := fix_eq_ok_iff.1 h
  refine ⟨(verdict_completed hv).trans (if_neg ?_), fun _ _ _ q hq => isMet_completed hq rfl⟩
  simp

theorem IsClosed.of_keys (h : t.IsClosed) (hk : u.keys = t.keys) : u.IsClosed :=
  ⟨hk ▸ h.passes, fun rows values defaults q hq => by
    rw [isMet_of_keys hk]
    exact h.meets rows values defaults q hq⟩

theorem IsClosed.missing_eq_nil (h : t.IsClosed) (values defaults : PerFamily (Pair Float)) :
    missing t.rows values defaults = [] := by
  refine List.map_eq_nil_iff.2 (List.filter_eq_nil_iff.2 fun q hq => ?_)
  simp [h.meets _ _ _ q hq]

/-- **Completion of a closed table only records values.** -/
theorem IsClosed.complete_eq (h : t.IsClosed) (o : Overrides) (defaults : PerFamily (Pair Float)) :
    t.complete o defaults false = .ok (t.recordValues (t.userValues o defaults)) := by
  have hv : verdict (t.recordValues (t.userValues o defaults)).keys = none := h.passes
  rw [complete, fix_of_no_verdict hv, stripped, filledUp, rows_recordValues, h.missing_eq_nil,
    List.append_nil]
  rfl

/-! ## Recorded values -/

/-- The keys that values of the families are recorded under. -/
def familyKeys : List String := Family.all.map (·.metaKey)

theorem metaKey_mem_familyKeys (i : Family) : i.metaKey ∈ familyKeys := by
  cases i <;> simp [familyKeys, Family.all]

theorem changesFirst_recordValues (t : FactorTable Float) (values : PerFamily (Pair Float)) :
    Metadata.ChangesFirst familyKeys t.metadata (t.recordValues values).metadata := by
  unfold recordValues
  generalize Family.all = families
  induction families generalizing t with
  | nil => exact .refl _ _
  | cons i families ih =>
    have hfirst : Metadata.ChangesFirst familyKeys t.metadata
        (t.setMeta i.metaKey (values.get i).metaText).metadata :=
      Metadata.changesFirst_set (metaKey_mem_familyKeys i) _ _
    exact hfirst.trans (ih _)

/-- Without explicit values the recorded ones are recorded again, whatever the defaults are. -/
theorem Records.recordValues_none (h : t.Records values) (defaults : PerFamily (Pair Float)) :
    t.recordValues (t.userValues .none defaults) = t := by
  refine recordValues_eq_self (h.congr (metaText_userValues h fun i p hp => ?_))
  cases i <;> cases hp

/-! ## The nearby perimeter -/

theorem IsClosed.toNearby (h : t.IsClosed) : t.toNearby.IsClosed := h.of_keys t.keys_toNearby

/-- The mark of the perimeter is in the way of no recorded value. -/
theorem Records.toNearby (h : t.Records values) : t.toNearby.Records values := by
  intro i
  have hne : i.metaKey ≠ Metadata.perimeterKey := by
    cases i <;> simp [Family.metaKey, Metadata.perimeterKey]
  exact (Metadata.get?_set_of_ne t.metadata _ hne).trans (h i)

/-! ## Later completion -/

/-- Later completion, with any explicit values and any defaults, succeeds, keeps all rows, and
    changes the metadata in the first values of the families only. -/
def IsSettled (t : FactorTable Float) : Prop :=
  ∀ (o : Overrides) (defaults : PerFamily (Pair Float)), ∃ u,
    t.complete o defaults false = .ok u ∧ u.rows = t.rows ∧
      Metadata.ChangesFirst familyKeys t.metadata u.metadata

theorem IsClosed.isSettled (h : t.IsClosed) : t.IsSettled := fun o defaults =>
  ⟨_, h.complete_eq o defaults, rfl, changesFirst_recordValues t _⟩

theorem IsClosed.complete_none (h : t.IsClosed) (hr : t.Records values)
    (defaults : PerFamily (Pair Float)) : t.complete .none defaults false = .ok t := by
  rw [h.complete_eq, hr.recordValues_none]

/-- **A completed table is settled, and so is its conversion to the nearby perimeter.**  If
    completion has recorded the values of the families, later completion without explicit values
    changes nothing at all, whatever the defaults are. -/
theorem settled_of_completion (t₀ t : FactorTable Float) (defaults : PerFamily (Pair Float)) :
    (∀ values, t₀.fix values defaults false = .ok t → t.IsSettled ∧ t.toNearby.IsSettled) ∧
    ∀ o, t₀.complete o defaults false = .ok t →
      (t.IsSettled ∧ t.toNearby.IsSettled) ∧
      ∀ defaults', t.complete .none defaults' false = .ok t ∧
        t.toNearby.complete .none defaults' false = .ok t.toNearby := by
  have hclosed (t₀ : FactorTable Float) (values : PerFamily (Pair Float))
      (h : t₀.fix values defaults false = .ok t) : t.IsClosed ∧ t.toNearby.IsClosed :=
    ⟨isClosed_of_fix h, (isClosed_of_fix h).toNearby⟩
  refine ⟨fun values h => (hclosed t₀ values h).imp (·.isSettled) (·.isSettled), fun o h => ?_⟩
  obtain ⟨ht, hn⟩ := hclosed _ _ h
  have hr := records_of_complete h
  exact ⟨⟨ht.isSettled, hn.isSettled⟩, fun defaults' =>
    ⟨ht.complete_none hr defaults', hn.complete_none hr.toNearby defaults'⟩⟩

/-- A network that has a row of its own, completed and then completed again with another value. -/
theorem settled_of_completion_ownDistrict :
    ∃ t u, ownDistrict.complete .none (.of fun _ => ⟨0, 2⟩) false = .ok t ∧
      t.toNearby.complete otherDistrict (.of fun _ => ⟨1, 1⟩) false = .ok u ∧
      u.rows = t.toNearby.rows ∧
      Metadata.ChangesFirst familyKeys t.toNearby.metadata u.metadata ∧
      t.toNearby.complete .none (.of fun _ => ⟨1, 1⟩) false = .ok t.toNearby := by
  obtain ⟨t, ht⟩ := exists_complete_eq_ok verdict_ownDistrict .none (.of fun _ => ⟨0, 2⟩) false
  obtain ⟨⟨-, hn⟩, hsame⟩ := (settled_of_completion _ t (.of fun _ => ⟨0, 2⟩)).2 .none ht
  obtain ⟨u, hu, hrows, hm⟩ := hn otherDistrict (.of fun _ => ⟨1, 1⟩)
  exact ⟨t, u, ht, hu, hrows, hm, (hsame _).2⟩

end FactorTable

end PrimaryEnergy
