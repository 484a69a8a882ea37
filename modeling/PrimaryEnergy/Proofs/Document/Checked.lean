/-
  Reading and writing the fields of records.

  * `Checked.seq_eq_valid_iff`: what is put together is valid if its parts are;
  * `required_eq_valid` and `optional_eq_valid`: fields that are there are read;
  * `lookup_toList_map`: a field that is written only if it has a value.
-/
import PrimaryEnergy.Document.Checked

namespace PrimaryEnergy

namespace Checked

variable {α β : Type} {a : α} {b : β} {x : Checked α} {title : String}

theorem map_eq_valid_iff {f : α → β} : f <$> x = .valid b ↔ ∃ a, x = .valid a ∧ f a = b := by
  cases x <;> simp [Functor.map, map]

theorem seq_eq_valid_iff {f : Checked (α → β)} :
    f <*> x = .valid b ↔ ∃ g a, f = .valid g ∧ x = .valid a ∧ g a = b := by
  cases f <;> cases x <;> simp [Seq.seq, seq]

theorem toExcept_eq_ok_iff : x.toExcept title = .ok a ↔ x = .valid a := by
  cases x <;> simp [toExcept]

theorem under_eq_valid_iff {name : String} : x.under name = .valid a ↔ x = .valid a := by
  cases x <;> simp [under]

theorem ensure_eq_valid_iff {p : α → Bool} {v : Violation} :
    x.ensure p v = .valid a ↔ x = .valid a ∧ p a = true := by
  cases x with
  | invalid ps => simp [ensure]
  | valid b =>
    by_cases hp : p b = true
    · simp only [ensure, hp, if_true, valid.injEq]
      exact ⟨fun h => ⟨h, h ▸ hp⟩, And.left⟩
    · simp only [ensure, hp, valid.injEq, fail]
      refine ⟨nofun, ?_⟩
      rintro ⟨rfl, h⟩
      exact absurd h hp

end Checked

namespace Document

variable {α β : Type} {a : α} {d v : Document} {name : String} {read : Document → Checked α}

theorem required_eq_valid (h : d.field? name = some v) (hv : read v = .valid a) :
    required d name read = .valid a := by
  rw [required, h, Checked.under_eq_valid_iff]
  exact hv

/-- A field that is there if it has a value. -/
theorem optional_eq_valid {o : Option β} {write : β → Document} {value : β → α} {default : α}
    (h : d.field? name = o.map write) (hv : ∀ b, read (write b) = .valid (value b)) :
    optional d name default read = .valid (o.elim default value) := by
  cases o with
  | none => simp only [optional, h, Option.map_none, Option.elim_none]
  | some b =>
    simp only [optional, h, Option.map_some, Option.elim_some, Checked.under_eq_valid_iff]
    exact hv b

/-- What is read in a field, or that it has been left out. -/
theorem of_optional {default : α} (h : optional d name default read = .valid a) :
    a = default ∨ ∃ v, read v = .valid a := by
  unfold optional at h
  split at h
  · exact .inr ⟨_, Checked.under_eq_valid_iff.1 h⟩
  · cases h
    exact .inl rfl

theorem lookup_toList_map (o : Option β) (name key : String) (write : β → Document) :
    (o.toList.map fun b => (name, write b)).lookup key =
      if key = name then o.map write else none := by
  cases o with
  | none => simp
  | some b =>
    by_cases h : key = name <;> simp [List.lookup_cons, h, beq_eq_false_iff_ne.2]

end Document

end PrimaryEnergy
