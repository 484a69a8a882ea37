/-
  Regulations: default values of the user families and a factor table for each location.

  `Regulation.table` is the factor table of a location, which always tells its location
  in its metadata.
-/
import PrimaryEnergy.Factor.Family

namespace PrimaryEnergy

/-- The factor table of a location. -/
structure Location where
  name : String
  table : FactorTable Float
deriving DecidableEq, Repr

/-- A version of the regulation. -/
structure Regulation where
  /-- The name of the version. -/
  version : String
  /-- The default values of the families. -/
  defaults : PerFamily (Pair Float)
  /-- The locations in order. -/
  locations : List Location
deriving DecidableEq, Repr

/-- A location that a regulation does not know. -/
structure UnknownLocation where
  /-- The name that was asked for. -/
  name : String
  /-- The names that are known. -/
  known : List String
deriving DecidableEq, Repr

/-- What a reader is told about it. -/
def UnknownLocation.message (e : UnknownLocation) : String :=
  "Unknown location \"" ++ e.name ++ "\" when generating weighting factors. Valid locations: " ++
    Text.joinText ", " e.known

namespace Regulation

def location? (r : Regulation) (name : String) : Option Location :=
  r.locations.find? fun l => l.name == name

/-- The factor table of a location, marked with its name unless it bears a mark. -/
def table (r : Regulation) (name : String) : Except UnknownLocation (FactorTable Float) :=
  match r.location? name with
  | none => .error ⟨name, r.locations.map (·.name)⟩
  | some l =>
    .ok (if (l.table.getMeta? Metadata.locationKey).isNone then
      l.table.setMeta Metadata.locationKey name else l.table)

end Regulation

end PrimaryEnergy
