/-
  What the files of a bundle hold.

  Tables are texts.  The settings, the record of a run and its balance are kept as what
  they are; `Content.text` is how they are written.
-/
import PrimaryEnergy.Document.Json
import PrimaryEnergy.Document.Yaml.Read
import PrimaryEnergy.Document.Yaml.Write
import PrimaryEnergy.Preparation

namespace PrimaryEnergy

/-- The version of this library, as it is written into records. -/
def libraryVersion : String := "0.1.0"

/-- Primary energy in the two steps of the calculation. -/
structure Steps where
  /-- Energy delivered and exported. -/
  a : Pair Float := ⟨0, 0⟩
  /-- With the credit for exported energy. -/
  b : Pair Float := ⟨0, 0⟩
deriving DecidableEq, Repr

/-- An energy balance and what it was computed from. -/
structure Balance where
  components : ComponentTable Float
  factors : FactorTable Float
  /-- How much of the exported energy is credited. -/
  exportCredit : Float
  /-- The reference area. -/
  area : Float
  total : Steps
  perArea : Steps
deriving DecidableEq, Repr

/-- What a run was made of. -/
structure RunRecord where
  /-- The version of the regulation. -/
  regulation : String
  /-- The metadata of the factors, one entry a key. -/
  factorMetadata : Metadata
  /-- The metadata of the components, one entry a key. -/
  componentMetadata : Metadata
  factorCount : Nat
  componentCount : Nat
deriving DecidableEq, Repr

/-- The record of a run; of repeated metadata keys the last value counts. -/
def RunRecord.of (p : Prepared) (r : Regulation) : RunRecord where
  regulation := r.version
  factorMetadata := p.factors.metadata.lastValues
  componentMetadata := p.components.metadata.lastValues
  factorCount := p.factors.rows.length
  componentCount := p.components.rows.length

/-- What a file holds. -/
inductive Content where
  /-- A text. -/
  | raw (s : String)
  | settings (s : RunSettings)
  | record (r : RunRecord)
  /-- An energy balance. -/
  | balance (b : Balance)
deriving DecidableEq, Repr

/-! ## How it is written -/

/-- Two steps as a record. -/
def Steps.toDocument (s : Steps) : Document :=
  .object [("A", s.a.toDocument), ("B", s.b.toDocument)]

/-- A balance as a record. -/
def Balance.toDocument (b : Balance) : Document :=
  .object
    [("components", .object [("meta", b.components.metadata.toDocument),
       ("data", .list (b.components.rows.map (·.toDocument)))]),
     ("wfactors", .object [("meta", b.factors.metadata.toDocument),
       ("data", .list (b.factors.rows.map (·.toDocument)))]),
     ("k_exp", .real b.exportCredit), ("arearef", .real b.area),
     ("balance", b.total.toDocument), ("balance_m2", b.perArea.toDocument)]

/-- The record of a run that was made at a moment. -/
def RunRecord.toDocument (r : RunRecord) (moment : String) : Document :=
  .object
    [("created_at", .text moment), ("epbd_engine_version", .text libraryVersion),
     ("regulatory_config_version", .text r.regulation),
     ("wfactors_meta", r.factorMetadata.toFields),
     ("components_meta", r.componentMetadata.toFields),
     ("num_factors", .int r.factorCount), ("num_components", .int r.componentCount)]

namespace Content

/-- The text of a file that is written at a moment. -/
def text (moment : String) : Content → String
  | .raw s => s
  | .settings s => Document.Yaml.write s.toDocument
  | .record r => Document.Json.write (r.toDocument moment)
  | .balance b => Document.Json.write b.toDocument

/-- The text of a file as it is read: every line break is a line feed. -/
def readText (c : Content) : String := String.ofList (Text.plainBreaks (c.text "").toList)

/-- The document that a file holds. -/
def document : Content → Except YamlFault Document
  | .settings s => .ok s.toDocument
  | c => Document.Yaml.read c.readText

end Content

end PrimaryEnergy
