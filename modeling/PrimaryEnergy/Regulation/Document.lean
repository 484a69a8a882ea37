/-
  Regulations read from configuration files.

  A location table holds metadata and rows, given as records or as the values of their
  fields in order.  Rows that are given as a text or as named values are taken one by one
  and refused; any other single value in place of the rows ends the reading at once.
-/
import PrimaryEnergy.Document.Records
import PrimaryEnergy.Regulation.Basic

namespace PrimaryEnergy.Regulation

open Document

/-- The title of the record. -/
def title : String := "RegulatoryConfig"

/-- The rows of a location table, one by one. -/
def rowsOf : Document → Except DocumentFault (List Document)
  | .list items => .ok (items.map (ofRow Factor.fieldNames))
  | .text s => .ok (s.toList.map fun c => .text (String.ofList [c]))
  | .object fields | .mixed fields => .ok (fields.map fun f => .text f.1)
  | d => .error (.notIterable d.kind)

/-- Reads named texts. -/
def metadataOf : Document → Checked Metadata
  | .object fields =>
    Checked.all (fun i => (fields.map (·.1)).getD i "")
      (fun f => (asText f.2).map fun s => ⟨f.1, s⟩) fields
  | _ => .fail .notMapping

/-- Reads a location table, `rows` being the value of its field of that name, split up. -/
def tableOf (rows : List Document) : Document → Checked (FactorTable Float) :=
  asRecord fun d =>
    Table.mk <$> optional d "meta" [] metadataOf <*>
      required d "factors" fun _ => Checked.all Nat.repr Factor.ofDocument rows

/-- Reads the location tables. -/
def locationsOf : Document → Except DocumentFault (Checked (List Location))
  | .object fields => do
    let tables ← fields.mapM fun f => do
      let rows ← match f.2.field? "factors" with
        | some d => rowsOf d
        | none => .ok []
      return (tableOf rows f.2).map fun t => (⟨f.1, t⟩ : Location)
    let names := fields.map (·.1)
    return (Checked.all (fun i => names.getD i "") id tables).ensure (fun ls => !ls.isEmpty)
      (.refused "At least one location table must be configured")
  | _ => .ok (.fail .notMapping)

/-- Reads the default values. -/
def defaultsOf : Document → Checked (PerFamily (Pair Float)) :=
  asRecord fun d =>
    PerFamily.mk <$> required d "cogen_to_grid" Pair.ofDocument <*>
      required d "cogen_to_nepb" Pair.ofDocument <*> required d "district1" Pair.ofDocument <*>
      required d "district2" Pair.ofDocument

/-- Reads a regulation. -/
def ofDocument (d : Document) : Except DocumentFault Regulation :=
  match d with
  | .object _ => do
    let locations ← match d.field? "locations" with
      | some l => locationsOf l
      | none => .ok (.valid [])
    (Regulation.mk <$> required d "version" asText <*> required d "defaults" defaultsOf <*>
      required d "locations" fun _ => locations).toExcept title
  | .mixed _ => .error .notNames
  | _ => .error (.notMapping title d.kind)

end PrimaryEnergy.Regulation
