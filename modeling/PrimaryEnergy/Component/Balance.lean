/-
  Balance of ambient energy.

  Ambient energy that a service uses must be produced on site.  Data often tell only
  the use; what is missing of the production is added, service by service.

  * `deficit` is the ambient energy of a service that no production covers, step by
    step in time;
  * `missingProduction` are the components that have to be added, in the order in which
    the services of ambient components first occur;
  * `ComponentTable.balance` adds them.
-/
import PrimaryEnergy.Component.Basic
import PrimaryEnergy.Series.Pointwise

namespace PrimaryEnergy

namespace Component

variable {α : Type}

/-- The components of ambient energy. -/
def ambient (rows : List (Component α)) : List (Component α) :=
  rows.filter fun c => c.carrier == .ambient

/-- The series of ambient energy that a service uses. -/
def ambientUse (rows : List (Component α)) (s : Service) : List (List α) :=
  ((ambient rows).filter fun c => c.service == s && c.isConsumption).map (·.values)

/-- The series of ambient energy that is produced for a service. -/
def ambientProduction (rows : List (Component α)) (s : Service) : List (List α) :=
  ((ambient rows).filter fun c => c.service == s && c.isProduction).map (·.values)

section
variable [Zero α] [Add α] [Sub α] [LT α] [DecidableLT α] [BEq α]

/-- The ambient energy used by a service that no production covers.  Without any
    production that is all of it, whatever its sign. -/
def deficit (rows : List (Component α)) (s : Service) : List α :=
  match ambientProduction rows s with
  | [] => Series.columnSums (ambientUse rows s)
  | produced =>
    (Series.sub (Series.columnSums (ambientUse rows s)) (Series.columnSums produced)).map
      Series.clamp

/-- The comment of added components. -/
def balanceNote : String :=
  "Equilibrado de energía térmica insitu consumida y sin producción declarada"

/-- The production that a service lacks, if it uses ambient energy and the total of what
    is not covered is not zero. -/
def missingFor (rows : List (Component α)) (s : Service) : Option (Component α) :=
  if (ambientUse rows s).isEmpty || Series.total (deficit rows s) == 0 then none
  else some ⟨.ambient, .onsiteProduction, s, deficit rows s, balanceNote⟩

/-- The productions that services lack. -/
def missingProduction (rows : List (Component α)) : List (Component α) :=
  (services (ambient rows)).filterMap (missingFor rows)

end

end Component

/-- Adds the productions that services lack. -/
def ComponentTable.balance {α : Type} [Zero α] [Add α] [Sub α] [LT α] [DecidableLT α] [BEq α]
    (t : ComponentTable α) : ComponentTable α :=
  { t with rows := t.rows ++ Component.missingProduction t.rows }

end PrimaryEnergy
