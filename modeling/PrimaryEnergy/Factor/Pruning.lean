/-
  Pruning: the factors that components make use of.

  What is kept depends only on the carriers and flows that occur in the components.
-/
import PrimaryEnergy.Component.Basic
import PrimaryEnergy.Factor.Basic

namespace PrimaryEnergy

variable {α β : Type}

/-- Whether components make use of factors with a key.  Their carrier has to occur; and
    factors of cogeneration, for uses outside the assessment and of electricity generated
    on site need a component of that kind. -/
def Factor.Key.isUsedBy (k : Factor.Key) (rows : List (Component β)) : Bool :=
  rows.any (fun c => c.carrier == k.carrier) &&
    (k.source != .cogeneration || rows.any fun c => c.flow == .cogeneratedProduction) &&
    (k.dest != .toOtherUses || rows.any fun c => c.flow == .otherUse) &&
    (!(k.carrier == .electricity && k.source == .onsite) ||
      rows.any fun c => c.carrier == .electricity && c.flow == .onsiteProduction)

/-- Removes the factors that components make no use of. -/
def FactorTable.prune (t : FactorTable α) (rows : List (Component β)) : FactorTable α :=
  { t with rows := t.rows.filter fun f => f.key.isUsedBy rows }

end PrimaryEnergy
