/-
  Completed factors: of a table under a regulation and of a location.

  * `FactorTable.completeUnder` completes a table with the default values of a
    regulation and, if it is wanted, converts it to the nearby perimeter;
    `completeUnderEvents` is what is reported on the way;
  * `Regulation.completed` does so for the factors of a location.
-/
import PrimaryEnergy.Fault
import PrimaryEnergy.Journal

namespace PrimaryEnergy

namespace FactorTable

/-- Completes a table with the default values of a regulation and, if it is wanted,
    converts it to the nearby perimeter. -/
def completeUnder (t : FactorTable Float) (r : Regulation) (o : Overrides) (strip nearby : Bool) :
    Except Fault (FactorTable Float) :=
  match t.complete o r.defaults strip with
  | .error e => .error (.completion e)
  | .ok full => .ok (if nearby then full.toNearby else full)

/-- What is reported of completion and, if it is wanted and completion succeeds, of
    conversion. -/
def completeUnderEvents (t : FactorTable Float) (r : Regulation) (o : Overrides)
    (strip nearby : Bool) : List Event :=
  t.completeEvents o r.defaults strip ++
    match t.complete o r.defaults strip with
    | .ok full => if nearby then full.nearbyEvents else []
    | .error _ => []

end FactorTable

namespace Regulation

/-- The completed factors of a location. -/
def completed (r : Regulation) (location : String) (o : Overrides) (strip nearby : Bool) :
    Except Fault (FactorTable Float) :=
  match r.table location with
  | .error e => .error (.location e)
  | .ok t => t.completeUnder r o strip nearby

/-- What is reported of the completed factors of a location. -/
def completedEvents (r : Regulation) (location : String) (o : Overrides) (strip nearby : Bool) :
    List Event :=
  match r.table location with
  | .error _ => []
  | .ok t => t.completeUnderEvents r o strip nearby

end Regulation

end PrimaryEnergy
