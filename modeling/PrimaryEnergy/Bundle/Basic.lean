/-
  Bundles: directories with the files of a run.

  A bundle holds the settings and the components and, unless the settings name a
  location, the factors; a run adds the completed factors, the prepared components, the
  record of the run and, if there is one, the balance.

  * `Bundle.init` writes a new bundle, `validate` checks one and `load` reads one;
  * `Bundle.results` are the files that a run writes.
-/
import PrimaryEnergy.Bundle.Content

namespace PrimaryEnergy

/-- Files and directories on which runs work. -/
abbrev Files := FileTree Content

namespace Bundle

def settingsFile : String := "run_config.yaml"
def componentsFile : String := "components.csv"
def factorsFile : String := "factors.csv"
def completedFile : String := "factors_completed.csv"
def preparedFile : String := "components_prepared.csv"
def recordFile : String := "run_metadata.json"
def balanceFile : String := "balance.json"

/-! ## Reading -/

def readSettings (t : Files) (p : Path) : Except Fault RunSettings :=
  match t.read (p.child settingsFile) with
  | .error e => .error (.file e)
  | .ok c =>
    match c.document with
    | .error e => .error (.yaml e)
    | .ok d => (RunSettings.ofDocument d).mapError .document

def readComponents (t : Files) (p : Path) : Except Fault (ComponentTable Float) :=
  match t.read (p.child componentsFile) with
  | .error e => .error (.file e)
  | .ok c => (ComponentTable.read c.readText).mapError .table

/-- Reads the factors, if there are any. -/
def readFactors (t : Files) (p : Path) : Except Fault (Option (FactorTable Float)) :=
  if t.has (p.child factorsFile) then
    match t.read (p.child factorsFile) with
    | .error e => .error (.file e)
    | .ok c => ((FactorTable.read c.readText).map some).mapError .table
  else .ok none

/-- What a bundle holds. -/
structure Loaded where
  settings : RunSettings
  components : ComponentTable Float
  /-- The factors, if there are any. -/
  factors : Option (FactorTable Float)
deriving DecidableEq, Repr

/-- Reads a bundle. -/
def load (t : Files) (p : Path) : Except Fault Loaded :=
  if t.has p then do
    let settings ← readSettings t p
    let components ← readComponents t p
    let factors ← readFactors t p
    return ⟨settings, components, factors⟩
  else .error (.noBundle p)

/-- Checks that the files that are needed are there and that the settings are valid. -/
def validate (t : Files) (p : Path) : Except Fault Unit :=
  match [settingsFile, componentsFile].find? fun name => !t.has (p.child name) with
  | some name => .error (.missingFile name)
  | none =>
    match readSettings t p with
    | .error e => .error e
    | .ok s =>
      if s.location.isNone && !t.has (p.child factorsFile) then .error .noFactorFile else .ok ()

/-! ## Writing -/

/-- The files of a new bundle. -/
def contents (l : Loaded) : List (String × Content) :=
  [(settingsFile, .settings l.settings), (componentsFile, .raw l.components.text)] ++
    l.factors.toList.map fun t => (factorsFile, .raw t.text)

/-- Files that are written into a directory. -/
def inside (p : Path) (files : List (String × Content)) : List (Path × Content) :=
  files.map fun (name, c) => (p.child name, c)

/-- Writes a new bundle, in a directory that is made if need be.  If a file cannot be
    written, those before it stay. -/
def init (t : Files) (p : Path) (l : Loaded) : Files × Option FileFault :=
  match t.makeDirectories p with
  | .error e => (t, some e)
  | .ok t => t.writeAll (inside p (contents l))

/-- The files that a run writes. -/
def results (x : Prepared) (r : Regulation) (b : Option Balance) : List (String × Content) :=
  [(completedFile, .raw x.factors.text), (preparedFile, .raw x.components.text)] ++
    (b.toList.map fun b => (balanceFile, .balance b)) ++ [(recordFile, .record (.of x r))]

/-- Writes the results of a run. -/
def writeResults (t : Files) (p : Path) (x : Prepared) (r : Regulation) (b : Option Balance) :
    Files × Option FileFault :=
  match t.makeDirectory p with
  | .error e => (t, some e)
  | .ok t => t.writeAll (inside p (results x r b))

end Bundle

end PrimaryEnergy
