/-
  Settings that are written and read again.

  * `isValid_iff`: the settings that are read are those with a normal location and a positive
    area;
  * `ofDocument_toDocument`: these are read as they are from the record that is written.
-/
import PrimaryEnergy.Proofs.Document.Checked
import PrimaryEnergy.Proofs.Table.Field
import PrimaryEnergy.Proofs.Text.LetterCase
import PrimaryEnergy.Settings.Basic

namespace PrimaryEnergy

open Document Checked

namespace RunSettings

variable {s : RunSettings} {d : Document}

/-! ## Fields -/

/-- A record with the values of settings. -/
structure Holds (d : Document) (s : RunSettings) : Prop where
  runId : d.field? "run_id" = some (.text s.runId)
  location : d.field? "location" = s.location.map .text
  family (i : Family) : d.field? i.name = (s.overrides.get i).map Pair.toDocument
  strip : d.field? "strip_nepb" = some (.bool s.strip)
  service : d.field? "service" = s.service.map fun v => .text (Token.text v)
  nearby : d.field? "nearby" = some (.bool s.nearby)
  prune : d.field? "prune" = some (.bool s.prune)
  exportCredit : d.field? "k_exp" = some (.real s.exportCredit)
  area : d.field? "arearef" = some (.real s.area)

/-- Each field is written under its own name. -/
theorem holds_toDocument (s : RunSettings) : Holds s.toDocument s := by
  constructor
  case family =>
    intro i
    cases i <;>
      simp [toDocument, field?, List.lookup_append, List.lookup_cons, lookup_toList_map,
        Family.all, Family.name]
  all_goals
    simp [toDocument, field?, List.lookup_append, List.lookup_cons, lookup_toList_map, Family.all,
      Family.name]

namespace Holds

variable (h : Holds d s)
include h

theorem read_location (hl : ∀ l ∈ s.location, normalLocation l = l) :
    (optional d "location" none (orNull asText)).map (·.map normalLocation) =
      .valid s.location := by
  have htext (l : String) : orNull asText (.text l) = .valid (some l) := rfl
  rw [optional_eq_valid h.location htext]
  cases hs : s.location with
  | none => rfl
  | some l => simp [Checked.map, hl l hs]

theorem read_overrides : overridesOf d = .valid s.overrides := by
  have hfamily (p : Pair Float) : familyOf p.toDocument = .valid (some p) := rfl
  have hread (i : Family) : optional d i.name none familyOf = .valid (s.overrides.get i) := by
    rw [optional_eq_valid (h.family i) hfamily]
    cases s.overrides.get i <;> rfl
  simp only [overridesOf, hread]
  rfl

theorem read_service : optional d "service" none (orNull asWord) = .valid s.service := by
  have hword (v : Service) : orNull asWord (.text (Token.text v)) = .valid (some v) := by
    simp only [orNull, asWord, LawfulToken.ofText?_text, Checked.map]
  rw [optional_eq_valid h.service hword]
  cases s.service <;> rfl

theorem read_exportCredit : optional d "k_exp" 0 asReal = .valid s.exportCredit := by
  simp only [Document.optional, h.exportCredit, asReal, under]

theorem read_area (ha : 0 < s.area) : optional d "arearef" 1 asPositive = .valid s.area := by
  simp only [Document.optional, h.area, asPositive, asReal, ensure, ha, decide_true, if_true,
    under]

end Holds

theorem read_truth {name : String} {b default : Bool} (h : d.field? name = some (.bool b)) :
    optional d name default asTruth = .valid b := by
  simp only [Document.optional, h, asTruth, under]

/-! ## Reading what is written -/

/-- Settings as they are read. -/
structure IsValid (s : RunSettings) : Prop where
  location : ∀ l ∈ s.location, normalLocation l = l
  area : 0 < s.area

/-- **Settings are read as they are from the record that is written.** -/
theorem ofDocument_toDocument (h : s.IsValid) : ofDocument s.toDocument = .ok s := by
  have hd := holds_toDocument s
  have hid : required s.toDocument "run_id" asText = .valid s.runId :=
    required_eq_valid hd.runId rfl
  rw [toDocument] at hd hid ⊢
  simp only [ofDocument]
  rw [hid, hd.read_location h.location, hd.read_overrides, read_truth hd.strip, hd.read_service,
    read_truth hd.nearby, read_truth hd.prune, hd.read_exportCredit, hd.read_area h.area]
  rfl

theorem location_normal {x : Checked (Option String)} {o : Option String}
    (h : x.map (·.map normalLocation) = .valid o) : ∀ l ∈ o, normalLocation l = l := by
  obtain ⟨o', -, rfl⟩ := map_eq_valid_iff.1 h
  intro l hl
  obtain ⟨l', -, rfl⟩ := Option.map_eq_some_iff.1 hl
  exact Text.upperText_trimText_idem l'

theorem area_positive {name : String} {x : Float}
    (h : optional d name 1 asPositive = .valid x) : 0 < x := by
  rcases of_optional h with rfl | ⟨v, hv⟩
  · decide +kernel
  · exact of_decide_eq_true (ensure_eq_valid_iff.1 hv).2

/-- Settings that are read have a normal location and a positive area. -/
theorem isValid_of_ofDocument (h : ofDocument d = .ok s) : s.IsValid := by
  unfold ofDocument at h
  split at h
  · simp only [toExcept_eq_ok_iff, seq_eq_valid_iff, map_eq_valid_iff] at h
    obtain ⟨-, area, ⟨-, _, ⟨-, _, ⟨-, _, ⟨-, _, ⟨-, _, ⟨-, _, ⟨-, l, ⟨-, -, rfl⟩, hl, rfl⟩, -,
      rfl⟩, -, rfl⟩, -, rfl⟩, -, rfl⟩, -, rfl⟩, -, rfl⟩, harea, rfl⟩ := h
    exact ⟨location_normal hl, area_positive harea⟩
  · cases h
  · cases h

/-- The settings that are read are the valid ones. -/
theorem isValid_iff : s.IsValid ↔ ∃ d, ofDocument d = .ok s :=
  ⟨fun h => ⟨s.toDocument, ofDocument_toDocument h⟩, fun ⟨_, h⟩ => isValid_of_ofDocument h⟩

end RunSettings

end PrimaryEnergy
