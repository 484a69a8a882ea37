/-
  Runs: preparing the inputs of a bundle, and perhaps its balance.

  `Bundle.run` reads the bundle, prepares its inputs, computes the balance if it is
  given how to, and writes the results.  It tells line by line how far it has come; if
  it fails, the lines up to there remain.
-/
import PrimaryEnergy.Bundle.Basic

namespace PrimaryEnergy

/-- How a balance is computed from components, factors, export credit and area. -/
abbrev BalanceAlgorithm :=
  ComponentTable Float → FactorTable Float → Float → Float → Except Fault Balance

namespace Bundle

/-- What a run leads to. -/
structure Run where
  /-- The lines that were printed. -/
  lines : List String
  /-- The files afterwards. -/
  files : Files
  /-- The prepared inputs and the balance, if there is one; or the failure. -/
  result : Except Fault (Prepared × Option Balance)

/-! ## Lines -/

/-- The line about reading a bundle. -/
def loadingLine (place : String) : String := "Loading bundle from " ++ place ++ "..."

/-- The lines about what was read. -/
def loadedLines (l : Loaded) : List String :=
  let rows := l.components.rows
  ["Run: " ++ l.settings.runId,
   "Components: " ++ rows.length.repr ++ " rows, " ++ (Component.stepCount rows).repr ++
     " timesteps, carriers: " ++ Text.joinText ", " ((Component.carriers rows).map Token.text),
   "Weighting factors: " ++ (match l.settings.location with
     | some name => "location " ++ name
     | none => "bundle factor table"),
   "Preparing components and weighting factors..."]

/-- The line about what was prepared. -/
def preparedLine (x : Prepared) : String :=
  "✓ " ++ x.components.rows.length.repr ++ " components, " ++ x.factors.rows.length.repr ++
    " weighting factors"

/-- The line about computing a balance. -/
def balancingLine : String := "Computing energy balance..."

/-- The line about a balance. -/
def balanceLine (b : Balance) : String :=
  let p := b.perArea.b
  "C_ep [kWh/m2.an]: ren = " ++ Decimal.fixed 1 p.ren ++ ", nren = " ++ Decimal.fixed 1 p.nren ++
    ", tot = " ++ Decimal.fixed 1 p.total ++ ", RER = " ++ Decimal.fixed 2 p.renewableShare

/-- The lines about writing the results. -/
def writingLines (place : String) : List String := ["", "Writing results to " ++ place ++ "..."]

/-! ## Running -/

/-- Computes the balance, if it is given how to, and the lines about it. -/
def computeBalance (algorithm : Option BalanceAlgorithm) (s : RunSettings) (x : Prepared) :
    List String × Except Fault (Option Balance) :=
  match algorithm with
  | none => ([], .ok none)
  | some compute =>
    match compute x.components x.factors s.exportCredit s.area with
    | .ok b => ([balancingLine, balanceLine b], .ok (some b))
    | .error e => ([balancingLine], .error e)

/-- Runs a bundle; `place` is how the lines name it. -/
def run (t : Files) (p : Path) (place : String) (r : Regulation)
    (algorithm : Option BalanceAlgorithm) : Run :=
  match load t p with
  | .error e => ⟨[loadingLine place], t, .error e⟩
  | .ok l =>
    let lines := loadingLine place :: loadedLines l
    match l.settings.prepare l.components l.factors r with
    | .error e => ⟨lines, t, .error e⟩
    | .ok x =>
      match computeBalance algorithm l.settings x with
      | (more, .error e) => ⟨lines ++ preparedLine x :: more, t, .error e⟩
      | (more, .ok b) =>
        let lines := lines ++ preparedLine x :: more ++ writingLines place
        match writeResults t p x r b with
        | (t', some e) => ⟨lines, t', .error (.file e)⟩
        | (t', none) => ⟨lines, t', .ok (x, b)⟩

/-- What a run reports, up to a failure if there is one. -/
def runEvents (t : Files) (p : Path) (r : Regulation) : List Event :=
  match load t p with
  | .error _ => []
  | .ok l => l.settings.prepareEvents l.components l.factors r

end Bundle

end PrimaryEnergy
