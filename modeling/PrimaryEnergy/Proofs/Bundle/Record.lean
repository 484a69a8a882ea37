/-
  The metadata that the record of a run tells.

  A record has one value for each metadata key of the tables.  It is the last one, while the
  run uses the first one (`Table.getMeta?`).

  * `read_record`: after a run the record is that of what was prepared;
  * `Bundle.record_tells_last_values`: which value it tells for a key.
-/
import PrimaryEnergy.Proofs.Bundle.Writing
import PrimaryEnergy.Proofs.Metadata
import PrimaryEnergy.Regulation.Current

namespace PrimaryEnergy

namespace RunRecord

/-- What a field of the record, as it is written at a moment, tells under a key. -/
def told? (rec : RunRecord) (moment field k : String) : Option Document :=
  ((rec.toDocument moment).field? field).bind (·.field? k)

/-- The field with the metadata of the factors. -/
def factorsField : String := "wfactors_meta"

/-- The field with the metadata of the components. -/
def componentsField : String := "components_meta"

theorem told?_factorsField (rec : RunRecord) (moment k : String) :
    rec.told? moment factorsField k = (rec.factorMetadata.get? k).map .text := by
  rw [← Metadata.field?_toFields]
  rfl

theorem told?_componentsField (rec : RunRecord) (moment k : String) :
    rec.told? moment componentsField k = (rec.componentMetadata.get? k).map .text := by
  rw [← Metadata.field?_toFields]
  rfl

end RunRecord

/-- What is told of a key is its last value in the metadata of a table; it is there just if the
    key is, and it is the value in use just if that is the last one. -/
structure TellsLast {ρ : Type} (told : Option Document) (t : Table ρ) (k : String) : Prop where
  /-- The last value is told. -/
  last : told = (t.metadata.values k).getLast?.map .text
  /-- A value is told of the keys that there are. -/
  isSome_iff : told.isSome ↔ ∃ e ∈ t.metadata, e.key = k
  /-- The first value is told just if the last one is the same. -/
  used_iff : told = (t.getMeta? k).map .text ↔ (t.metadata.values k).getLast? = t.getMeta? k
  /-- The value of a key that is not repeated is told. -/
  used : (t.metadata.values k).length ≤ 1 → told = (t.getMeta? k).map .text

theorem Document.map_text_inj {s s' : Option String} : s.map text = s'.map text ↔ s = s' :=
  (Option.map_injective fun _ _ => text.inj).eq_iff

theorem tellsLast_lastValues {ρ : Type} (t : Table ρ) (k : String) :
    TellsLast ((t.metadata.lastValues.get? k).map .text) t k := by
  rw [Metadata.get?_lastValues]
  refine ⟨rfl, ?_, Document.map_text_inj, fun hl => congrArg _ ?_⟩
  · rw [Option.isSome_map, ← Metadata.values_ne_nil_iff, List.getLast?_isSome]
  · rw [Table.getMeta?, Metadata.get?_eq_head?]
    match t.metadata.values k, hl with
    | [], _ => rfl
    | [_], _ => rfl

namespace Bundle

variable {t t' : Files} {p : Path} {x : Prepared} {r : Regulation} {b : Option Balance}

/-- The record that is read after a run. -/
theorem read_record (h : writeResults t p x r b = (t', none)) :
    t'.read (p.child recordFile) = .ok (.record (.of x r)) := by
  have hm : (recordFile, Content.record (.of x r)) ∈ results x r b := by simp [results]
  exact read_of_writeResults h hm

/-- **What the record of a run tells.**  Under each metadata key of the factors and of the
    components it tells the last value; the run uses the first one. -/
theorem record_tells_last_values (h : writeResults t p x r b = (t', none)) :
    ∃ rec, t'.read (p.child recordFile) = .ok (.record rec) ∧ ∀ moment k,
      TellsLast (rec.told? moment RunRecord.factorsField k) x.factors k ∧
      TellsLast (rec.told? moment RunRecord.componentsField k) x.components k := by
  refine ⟨.of x r, read_record h, fun moment k => ⟨?_, ?_⟩⟩
  · rw [RunRecord.told?_factorsField]
    exact tellsLast_lastValues x.factors k
  · rw [RunRecord.told?_componentsField]
    exact tellsLast_lastValues x.components k

/-- Inputs with two values for the family of exported cogeneration. -/
def repeatedMetadata : Prepared where
  components := {}
  factors := { metadata := [⟨"CTE_COGEN", "0.0, 1.0"⟩, ⟨"CTE_COGEN", "0.0, 2.0"⟩] }

theorem writeResults_repeatedMetadata :
    writeResults {} {} repeatedMetadata .current none =
      ((writeResults {} {} repeatedMetadata .current none).1, none) := by
  rfl

theorem record_tells_last_values_repeated :
    ∃ t' rec, writeResults {} {} repeatedMetadata .current none = (t', none) ∧
      t'.read ⟨false, [recordFile]⟩ = .ok (.record rec) ∧
      repeatedMetadata.factors.getMeta? "CTE_COGEN" = some "0.0, 1.0" ∧
      ∀ moment, rec.told? moment RunRecord.factorsField "CTE_COGEN" = some (.text "0.0, 2.0") := by
  obtain ⟨rec, hread, htells⟩ := record_tells_last_values writeResults_repeatedMetadata
  exact ⟨_, rec, writeResults_repeatedMetadata, hread, by decide +kernel,
    fun moment => (htells moment "CTE_COGEN").1.last⟩

theorem not_record_tells_value_in_use :
    ¬ ∀ (t t' : Files) (p : Path) (x : Prepared) (r : Regulation) (b : Option Balance),
      writeResults t p x r b = (t', none) → ∃ rec,
        t'.read (p.child recordFile) = .ok (.record rec) ∧ ∀ moment k,
          rec.told? moment RunRecord.factorsField k = (x.factors.getMeta? k).map .text := by
  intro h
  obtain ⟨rec, hread, htold⟩ := h _ _ _ _ _ _ writeResults_repeatedMetadata
  rw [read_record writeResults_repeatedMetadata] at hread
  cases hread
  have hvalue := htold "" "CTE_COGEN"
  rw [RunRecord.told?_factorsField, Document.map_text_inj] at hvalue
  exact absurd hvalue (by decide +kernel)

end Bundle

end PrimaryEnergy
