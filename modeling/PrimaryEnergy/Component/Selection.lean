/-
  Selection of a service.

  The components of a service are those assigned to it and, of the electricity produced
  on site for no service in particular, the share that the service has in the use of
  electricity.

  * `electricityShare` is that share: zero if there is no use;
  * `ComponentTable.select` selects a service and marks the table.
-/
import PrimaryEnergy.Component.Basic
import PrimaryEnergy.Series.Pointwise
import PrimaryEnergy.Text.Blank

namespace PrimaryEnergy

namespace Component

variable {α : Type}

def electricityUse (rows : List (Component α)) : List (Component α) :=
  rows.filter fun c => c.carrier == .electricity && c.isConsumption

/-- The electricity produced on site for no service in particular. -/
def sharedProduction (rows : List (Component α)) : List (Component α) :=
  rows.filter fun c =>
    c.carrier == .electricity && c.flow == .onsiteProduction && c.service == .undefined

section
variable [Zero α] [Add α]

/-- The energy of several components together. -/
def grandTotal (rows : List (Component α)) : α := Series.leftSum (rows.map total)

variable [Div α] [LT α] [DecidableLT α]

/-- The part of the electricity use that belongs to a service; zero if one of the two
    totals is not positive. -/
def electricityShare (rows : List (Component α)) (s : Service) : α :=
  let whole := grandTotal (electricityUse rows)
  let part := grandTotal ((electricityUse rows).filter fun c => c.service == s)
  if 0 < whole ∧ 0 < part then part / whole else 0

variable [Mul α]

/-- What is added to the comments of reassigned components. -/
def reassignedNote : String := "Producción insitu proporcionalmente reasignada al servicio."

/-- The part of a shared production that is assigned to a service. -/
def reassign (s : Service) (share : α) (c : Component α) : Component α :=
  ⟨.electricity, .onsiteProduction, s, Series.scale share c.values,
    Text.trimText (c.comment ++ " " ++ reassignedNote)⟩

/-- The shared productions that are reassigned to a service: none if its share is zero. -/
def reassigned (rows : List (Component α)) (s : Service) : List (Component α) :=
  let share := electricityShare rows s
  if 0 < share then (sharedProduction rows).map (reassign s share) else []

def ofService (rows : List (Component α)) (s : Service) : List (Component α) :=
  rows.filter (fun c => c.service == s) ++ reassigned rows s

end

end Component

/-- Selects the components of a service and marks the table. -/
def ComponentTable.select {α : Type} [Zero α] [Add α] [Mul α] [Div α] [LT α] [DecidableLT α]
    (t : ComponentTable α) (s : Service) : ComponentTable α :=
  ⟨(t.metadata.set Metadata.perimeterKey Metadata.nearbyPerimeter).set Metadata.serviceKey
    (Token.text s), Component.ofService t.rows s⟩

end PrimaryEnergy
