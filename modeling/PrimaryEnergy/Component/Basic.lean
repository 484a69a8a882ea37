/-
  Energy components.

  A component is the energy of one carrier that a service uses, or that is produced
  for it, step by step in time.
-/
import PrimaryEnergy.Distinct
import PrimaryEnergy.Table.Basic
import PrimaryEnergy.Series.Sum
import PrimaryEnergy.Vocabulary

namespace PrimaryEnergy

/-- Energy used or produced, per time step. -/
structure Component (α : Type) where
  carrier : Carrier
  /-- Whether and how the energy is used or produced. -/
  flow : Flow
  service : Service := .undefined
  /-- The energy of each time step. -/
  values : List α
  /-- A remark. -/
  comment : String := ""
deriving DecidableEq, Repr

/-- A table of energy components. -/
abbrev ComponentTable (α : Type) := Table (Component α)

namespace Component

variable {α : Type}

/-- Whether the energy is used. -/
def isConsumption (c : Component α) : Bool := c.flow.type == .consumption

/-- Whether the energy is produced. -/
def isProduction (c : Component α) : Bool := c.flow.type == .production

/-- The energy of all time steps. -/
def total [Zero α] [Add α] (c : Component α) : α := Series.leftSum c.values

/-- The distinct carriers, in order of first occurrence. -/
def carriers (rows : List (Component α)) : List Carrier := distinct (rows.map (·.carrier))

/-- The distinct services, in order of first occurrence. -/
def services (rows : List (Component α)) : List Service := distinct (rows.map (·.service))

/-- The number of time steps of the longest series. -/
def stepCount (rows : List (Component α)) : Nat := Series.longest (rows.map (·.values))

end Component

end PrimaryEnergy
