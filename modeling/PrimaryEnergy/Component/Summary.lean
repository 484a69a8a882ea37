/-
  Summary of components: one total for each carrier, flow and service that occurs.

  The lines are in the order of the texts of carrier, type, subtype and service.  A total
  is the compensated sum of the totals of the rows, in their order.
-/
import PrimaryEnergy.Component.Basic

namespace PrimaryEnergy

namespace Component

/-- What components are grouped by. -/
structure Group where
  carrier : Carrier
  /-- Whether and how the energy is used or produced. -/
  flow : Flow
  service : Service
deriving DecidableEq, Repr

def Group.tokens (g : Group) : List String :=
  [Token.text g.carrier, Token.text g.flow.type, Token.text g.flow.subtype, Token.text g.service]

variable {α : Type}

/-- The group of a component. -/
def group (c : Component α) : Group := ⟨c.carrier, c.flow, c.service⟩

/-- The total of a group. -/
def groupTotal [Zero α] [Add α] [Sub α] [BEq α] (rows : List (Component α)) (g : Group) : α :=
  Series.compensatedSum ((rows.filter fun c => c.group == g).map total)

/-- Whether a list of texts does not come after another one in the order of a dictionary. -/
def tokensOrdered : List String → List String → Bool
  | [], _ => true
  | _ :: _, [] => false
  | s :: ss, t :: ts => s < t || (s == t && tokensOrdered ss ts)

/-- The groups that occur, in the order of their texts. -/
def groups (rows : List (Component α)) : List Group :=
  (distinct (rows.map group)).mergeSort fun g h => tokensOrdered g.tokens h.tokens

/-- The groups that occur with their totals. -/
def summary [Zero α] [Add α] [Sub α] [BEq α] (rows : List (Component α)) : List (Group × α) :=
  (groups rows).map fun g => (g, groupTotal rows g)

end Component

end PrimaryEnergy
