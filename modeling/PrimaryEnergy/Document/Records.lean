/-
  Pairs, factors and components as records of documents.
-/
import PrimaryEnergy.Component.Basic
import PrimaryEnergy.Document.Checked
import PrimaryEnergy.Factor.Basic

namespace PrimaryEnergy

open Document

namespace Pair

/-- Reads a pair; parts that are left out are zero. -/
def ofDocument : Document → Checked (Pair Float) :=
  asRecord fun d => Pair.mk <$> optional d "ren" 0 asReal <*> optional d "nren" 0 asReal

/-- The pair as a record. -/
def toDocument (p : Pair Float) : Document :=
  .object [("ren", .real p.ren), ("nren", .real p.nren)]

end Pair

namespace Factor

/-- The names of the fields, in the order of a row. -/
def fieldNames : List String := ["carrier", "source", "dest", "step", "ren", "nren", "comment"]

/-- Reads a factor. -/
def ofDocument : Document → Checked (Factor Float) :=
  asRecord fun d =>
    (fun c s d t r n k => ⟨⟨c, s, d, t⟩, ⟨r, n⟩, k⟩) <$> required d "carrier" asWord <*>
      required d "source" asWord <*> required d "dest" asWord <*> required d "step" asWord <*>
      required d "ren" asReal <*> required d "nren" asReal <*> optional d "comment" "" asText

/-- The factor as a record. -/
def toDocument (f : Factor Float) : Document :=
  .object (fieldNames.zip
    (f.key.tokens.map .text ++ [.real f.value.ren, .real f.value.nren, .text f.comment]))

end Factor

namespace Component

/-- The names of the fields, in the order of a row. -/
def fieldNames : List String := ["carrier", "ctype", "csubtype", "service", "values", "comment"]

/-- Why a subtype is refused. -/
def subtypeRefusal (t : FlowType) (s : FlowSubtype) : String :=
  "Subtype " ++ Token.text s ++ " is not valid for component type " ++ Token.text t

/-- A component, unless its subtype does not go with its type. -/
def ofParts (c : Carrier) (t : FlowType) (s : FlowSubtype) (v : Service) (values : List Float)
    (comment : String) : Checked (Component Float) :=
  match Flow.of? t s with
  | some f => .valid ⟨c, f, v, values, comment⟩
  | none => .fail (.refused (subtypeRefusal t s))

/-- Reads a component.  Type and subtype are compared once all fields are valid. -/
def ofDocument : Document → Checked (Component Float) :=
  asRecord fun d =>
    match (ofParts <$> required d "carrier" asWord <*> required d "ctype" asWord <*>
      required d "csubtype" asWord <*> optional d "service" .undefined asWord <*>
      required d "values" (asList asReal) <*> optional d "comment" "" asText :
        Checked (Checked (Component Float))) with
    | .valid c => c
    | .invalid ps => .invalid ps

/-- The component as a record. -/
def toDocument (c : Component Float) : Document :=
  .object (fieldNames.zip
    [.text (Token.text c.carrier), .text (Token.text c.flow.type),
     .text (Token.text c.flow.subtype), .text (Token.text c.service),
     .list (c.values.map .real), .text c.comment])

end Component

namespace Metadata

/-- Metadata as a list of records. -/
def toDocument (m : Metadata) : Document :=
  .list (m.map fun e => .object [("key", .text e.key), ("value", .text e.value)])

/-- Metadata without repeated keys as named texts. -/
def toFields (m : Metadata) : Document := .object (m.map fun e => (e.key, .text e.value))

end Metadata

end PrimaryEnergy
