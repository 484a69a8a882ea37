/-
  The commands.

  A command works on files and leads to an exit code, to texts for the standard output and
  the standard error, to the files afterwards and to what is reported on the way.  The
  exit code is 0 for success, 1 for failure and 2 if a command is not given what it
  accepts.  `CommandLine.run` picks the command and runs it.
-/
import PrimaryEnergy.Bundle.Run
import PrimaryEnergy.CommandLine.Arguments
import PrimaryEnergy.Component.Summary
import PrimaryEnergy.Regulation.Completed
import PrimaryEnergy.Regulation.Current
import PrimaryEnergy.Text.Grid

namespace PrimaryEnergy.CommandLine

open Text

/-- The commands. -/
inductive Command where
  /-- Tells the version. -/
  | version
  /-- Prints the completed factors of a location. -/
  | factors
  /-- Completes a factor file. -/
  | complete
  /-- Balances a component file. -/
  | components
  /-- Checks a bundle. -/
  | validate
  /-- Runs a bundle. -/
  | prepare
deriving DecidableEq, Repr

namespace Command

/-- The name of a command. -/
def name : Command → String
  | version => "version"
  | factors => "wfactors"
  | complete => "complete"
  | components => "components"
  | validate => "validate"
  | prepare => "prepare"

def all : List Command := [version, factors, complete, components, validate, prepare]

/-- What a command accepts. -/
def signature : Command → Signature
  | version => ⟨0, [], []⟩
  | factors => ⟨1, Family.all.map Family.name, ["keep-nepb", "nearby"]⟩
  | complete => ⟨1, [], ["keep-nepb", "nearby", "strict", "summary"]⟩
  | components => ⟨1, ["service"], ["summary"]⟩
  | validate | prepare => ⟨1, [], []⟩

end Command

/-- What a command leads to. -/
structure Outcome where
  exit : Nat
  stdout : String
  stderr : String
  /-- The files afterwards. -/
  files : Files
  /-- What is reported, up to a failure if there is one. -/
  events : List Event := []

/-- A text on success, or a message; and what is reported. -/
abbrev Printed := Except String String × List Event

/-- A failure with a message in front. -/
def orFail {τ : Type} (label : String) (r : Except Fault τ) : Except String τ :=
  r.mapError fun e => label ++ e.message

/-! ## Factors of a location -/

/-- Reads the value of a family that is given as an option. -/
def familyOption (a : Arguments) (i : Family) : Except String (Option (Pair Float)) :=
  match a.option? i.name with
  | none => .ok none
  | some s =>
    match Pair.ofText s with
    | .ok p => .ok (some p)
    | .error _ => .error ("✗ Invalid value for --" ++ i.name ++ ": expected 'ren, nren'")

/-- Reads the values of the families that are given as options. -/
def overridesOf (a : Arguments) : Except String Overrides := do
  let p ← familyOption a .cogenToGrid
  let q ← familyOption a .cogenToOther
  let r ← familyOption a .district1
  let s ← familyOption a .district2
  return ⟨p, q, r, s⟩

/-- Prints the completed factors of a location. -/
def printFactors (a : Arguments) (location : String) : Printed :=
  match overridesOf a with
  | .error message => (.error message, [])
  | .ok o =>
    let place := upperText location
    let strip := !a.flag "keep-nepb"
    let nearby := a.flag "nearby"
    (orFail "✗ " ((Regulation.current.completed place o strip nearby).map FactorTable.text),
      Regulation.current.completedEvents place o strip nearby)

/-! ## Files -/

def readText (t : Files) (place : String) : Except Fault String :=
  match t.read (.ofText place) with
  | .ok c => .ok c.readText
  | .error e => .error (.file e)

/-- Reads and completes a factor file. -/
def completedFile (t : Files) (place : String) (strict strip nearby : Bool) :
    Except Fault (FactorTable Float) := do
  let s ← readText t place
  let raw ← (FactorTable.read s).mapError .table
  let _ ← (raw.checkKeys strict).mapError .keys
  raw.completeUnder .current .none strip nearby

/-- What is reported of a factor file. -/
def completedEvents (t : Files) (place : String) (strict strip nearby : Bool) : List Event :=
  match readText t place with
  | .error _ => []
  | .ok s =>
    match FactorTable.read s with
    | .error _ => []
    | .ok raw =>
      raw.checkEvents strict ++
        match raw.checkKeys strict with
        | .error _ => []
        | .ok _ => raw.completeUnderEvents .current .none strip nearby

/-- Factors as a table in columns, without the comments. -/
def factorGrid (t : FactorTable Float) : String :=
  grid
    [.words "carrier" (t.rows.map fun f => Token.text f.key.carrier),
     .words "source" (t.rows.map fun f => Token.text f.key.source),
     .words "dest" (t.rows.map fun f => Token.text f.key.dest),
     .words "step" (t.rows.map fun f => Token.text f.key.step),
     .numbers "ren" (t.rows.map (·.value.ren)), .numbers "nren" (t.rows.map (·.value.nren))]

/-- Prints a completed factor file. -/
def printCompleted (t : Files) (a : Arguments) (place : String) : Printed :=
  let strict := a.flag "strict"
  let strip := !a.flag "keep-nepb"
  let nearby := a.flag "nearby"
  (orFail "✗ Weighting factor completion failed: "
    ((completedFile t place strict strip nearby).map fun t =>
      if a.flag "summary" then factorGrid t ++ "\n" else t.text),
    completedEvents t place strict strip nearby)

/-- Reads and balances a component file and selects a service, if one is given. -/
def balancedFile (t : Files) (place : String) (service : Option String) :
    Except Fault (ComponentTable Float) := do
  let s ← readText t place
  let c ← (ComponentTable.read s).mapError .table
  match service with
  | none => return c.balance
  | some s => return c.balance.select (← (Token.parse (upperText s)).mapError .word)

/-- What is reported of a component file. -/
def balancedEvents (t : Files) (place : String) (service : Option String) : List Event :=
  match readText t place with
  | .error _ => []
  | .ok s =>
    match ComponentTable.read s with
    | .error _ => []
    | .ok c =>
      c.balanceEvents ++
        match service.bind fun s => (Token.ofText? (upperText s) : Option Service) with
        | some v => c.balance.selectEvents v
        | none => []

/-- The summary of components as a table in columns. -/
def summaryGrid (c : ComponentTable Float) : String :=
  let lines := Component.summary c.rows
  grid
    [.words "carrier" (lines.map fun l => Token.text l.1.carrier),
     .words "ctype" (lines.map fun l => Token.text l.1.flow.type),
     .words "csubtype" (lines.map fun l => Token.text l.1.flow.subtype),
     .words "service" (lines.map fun l => Token.text l.1.service),
     .numbers "total_kwh" (lines.map (·.2))]

/-- Prints a balanced component file. -/
def printComponents (t : Files) (a : Arguments) (place : String) : Printed :=
  (orFail "✗ Component processing failed: "
    ((balancedFile t place (a.option? "service")).map fun c =>
      if a.flag "summary" then summaryGrid c ++ "\n" else c.text),
    balancedEvents t place (a.option? "service"))

/-! ## Bundles -/

/-- Checks a bundle. -/
def printValid (t : Files) (place : String) : Printed :=
  (orFail "✗ Bundle validation failed: "
    ((Bundle.validate t (.ofText place)).map fun _ => "✓ Bundle at " ++ place ++ " is valid\n"), [])

/-- Lines, each with its end. -/
def printed (lines : List String) : String := String.join (lines.map (· ++ "\n"))

def runBundle (t : Files) (place : String) : Outcome :=
  let run := Bundle.run t (.ofText place) place .current none
  let events := Bundle.runEvents t (.ofText place) .current
  match run.result with
  | .ok _ =>
    ⟨0, printed (run.lines ++ ["", "✓ Preparation completed successfully"]), "", run.files, events⟩
  | .error e =>
    ⟨1, printed run.lines, "\n✗ Preparation failed: " ++ e.message ++ "\n", run.files, events⟩

/-! ## All commands -/

/-- What a command leads to that only prints. -/
def printing (t : Files) : Printed → Outcome
  | (.ok s, events) => ⟨0, s, "", t, events⟩
  | (.error message, events) => ⟨1, "", message ++ "\n", t, events⟩

/-- A command that is not given what it accepts. -/
def usageError (t : Files) : Outcome := ⟨2, "", "", t, []⟩

/-- Runs a command. -/
def Command.run (t : Files) (a : Arguments) : Command → Outcome
  | version => printing t (.ok ("EPBD Engine v" ++ libraryVersion ++ "\n"), [])
  | c =>
    match c, a.operands with
    | factors, [place] => printing t (printFactors a place)
    | complete, [place] => printing t (printCompleted t a place)
    | components, [place] => printing t (printComponents t a place)
    | validate, [place] => printing t (printValid t place)
    | prepare, [place] => runBundle t place
    | _, _ => usageError t

/-- Runs the command that the first argument names. -/
def runNamed (t : Files) : List String → Outcome
  | [] => usageError t
  | n :: args =>
    match Command.all.find? fun c => c.name == n with
    | none => usageError t
    | some c =>
      match c.signature.read args with
      | some a => c.run t a
      | none => usageError t

/-- Runs a command line; two hyphens may stand in front of the command. -/
def run (t : Files) : List String → Outcome
  | "--" :: args => runNamed t args
  | args => runNamed t args

end PrimaryEnergy.CommandLine
