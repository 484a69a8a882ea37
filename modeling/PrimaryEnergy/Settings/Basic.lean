/-
  The settings of a run.

  `RunSettings.ofDocument` reads them; a field that is left out has its default value.
  The location is written in capitals, without blanks around it.
-/
import PrimaryEnergy.Document.Records
import PrimaryEnergy.Factor.Family
import PrimaryEnergy.Text.LetterCase

namespace PrimaryEnergy

open Document

/-- The settings of a run. -/
structure RunSettings where
  /-- What the run is called. -/
  runId : String
  /-- The location, if its factors are to be used. -/
  location : Option String := none
  /-- Values of the user families. -/
  overrides : Overrides := Overrides.none
  /-- Whether factors for uses outside the assessment are removed. -/
  strip : Bool := true
  /-- The service, if one is selected. -/
  service : Option Service := none
  /-- Whether factors are converted to the nearby perimeter. -/
  nearby : Bool := false
  /-- Whether factors that are not made use of are removed. -/
  prune : Bool := false
  /-- How much of the exported energy is credited. -/
  exportCredit : Float := 0
  /-- The reference area. -/
  area : Float := 1
deriving DecidableEq, Repr

namespace RunSettings

/-- The title of the record. -/
def title : String := "RunConfig"

/-- The name of a location as regulations write it. -/
def normalLocation (s : String) : String := Text.upperText (Text.trimText s)

/-- Reads the value of a family: a record or two numbers with a comma between them. -/
def familyOf : Document → Checked (Option (Pair Float))
  | .text s =>
    match Pair.ofText s with
    | .ok p => .valid (some p)
    | .error e => .fail (.refused e.message)
  | d => orNull Pair.ofDocument d

/-- Reads the values of the families. -/
def overridesOf (d : Document) : Checked Overrides :=
  let family (i : Family) := optional d i.name none familyOf
  PerFamily.mk <$> family .cogenToGrid <*> family .cogenToOther <*> family .district1 <*>
    family .district2

/-- Reads a positive number. -/
def asPositive (d : Document) : Checked Float := (asReal d).ensure (fun x => 0 < x) .notPositive

/-- Reads settings. -/
def ofDocument (d : Document) : Except DocumentFault RunSettings :=
  match d with
  | .object _ =>
    (RunSettings.mk <$> required d "run_id" asText <*>
      (optional d "location" none (orNull asText)).map (·.map normalLocation) <*>
      overridesOf d <*> optional d "strip_nepb" true asTruth <*>
      optional d "service" none (orNull asWord) <*> optional d "nearby" false asTruth <*>
      optional d "prune" false asTruth <*> optional d "k_exp" 0 asReal <*>
      optional d "arearef" 1 asPositive).toExcept title
  | .mixed _ => .error .notNames
  | _ => .error (.notMapping title d.kind)

/-- The settings as a record, without the fields that have no value. -/
def toDocument (s : RunSettings) : Document :=
  .object
    ([("run_id", .text s.runId)] ++ (s.location.toList.map fun l => ("location", .text l)) ++
      (Family.all.flatMap fun i =>
        (s.overrides.get i).toList.map fun p => (i.name, p.toDocument)) ++
      [("strip_nepb", .bool s.strip)] ++
      (s.service.toList.map fun v => ("service", .text (Token.text v))) ++
      [("nearby", .bool s.nearby), ("prune", .bool s.prune), ("k_exp", .real s.exportCredit),
       ("arearef", .real s.area)])

end RunSettings

end PrimaryEnergy
