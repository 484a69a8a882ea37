/-
  Preparation: from the settings and the raw tables to what a balance is computed from.

  The components are balanced and, if a service is set, selected.  The factors come from
  the location, if one is set, or from the given table; they are completed and, as the
  settings say, converted to the nearby perimeter and pruned.

  `prepare` computes the result, `prepareEvents` what is reported on the way.
-/
import PrimaryEnergy.Fault
import PrimaryEnergy.Journal
import PrimaryEnergy.Settings.Basic

namespace PrimaryEnergy

/-- What a balance is computed from. -/
structure Prepared where
  components : ComponentTable Float
  factors : FactorTable Float
deriving DecidableEq, Repr

namespace RunSettings

def prepareComponents (s : RunSettings) (c : ComponentTable Float) : ComponentTable Float :=
  match s.service with
  | some v => c.balance.select v
  | none => c.balance

/-- The factors that a run starts with. -/
def rawFactors (s : RunSettings) (t : Option (FactorTable Float)) (r : Regulation) :
    Except Fault (FactorTable Float) :=
  match s.location, t with
  | some name, _ => (r.table name).mapError .location
  | none, some t => .ok t
  | none, none => .error .noFactors

/-- Converts and prunes a completed table. -/
def adapt (s : RunSettings) (c : ComponentTable Float) (t : FactorTable Float) :
    FactorTable Float :=
  let t := if s.nearby then t.toNearby else t
  if s.prune then t.prune c.rows else t

/-- Prepares components and factors. -/
def prepare (s : RunSettings) (c : ComponentTable Float) (t : Option (FactorTable Float))
    (r : Regulation) : Except Fault Prepared :=
  match s.rawFactors t r with
  | .error e => .error e
  | .ok raw =>
    match raw.complete s.overrides r.defaults s.strip with
    | .error e => .error (.completion e)
    | .ok full => .ok ⟨s.prepareComponents c, s.adapt (s.prepareComponents c) full⟩

/-- What is reported of the components. -/
def componentEvents (s : RunSettings) (c : ComponentTable Float) : List Event :=
  c.balanceEvents ++ s.service.toList.flatMap c.balance.selectEvents

/-- What is reported of conversion and pruning. -/
def adaptEvents (s : RunSettings) (c : ComponentTable Float) (t : FactorTable Float) :
    List Event :=
  (if s.nearby then t.nearbyEvents else []) ++
    if s.prune then (if s.nearby then t.toNearby else t).pruneEvents c.rows else []

/-- What is reported, up to a failure if there is one. -/
def prepareEvents (s : RunSettings) (c : ComponentTable Float) (t : Option (FactorTable Float))
    (r : Regulation) : List Event :=
  s.componentEvents c ++
    match s.rawFactors t r with
    | .error _ => []
    | .ok raw =>
      raw.checkEvents false ++ raw.completeEvents s.overrides r.defaults s.strip ++
        match raw.complete s.overrides r.defaults s.strip with
        | .error _ => []
        | .ok full => s.adaptEvents (s.prepareComponents c) full

end RunSettings

end PrimaryEnergy
