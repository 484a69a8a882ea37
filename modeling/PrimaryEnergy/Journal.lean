/-
  The journal: what operations report while they work.

  An event has a level and a message.  Operations compute their results without a
  journal; beside them stand the lists of events that they report, in order.
-/
import PrimaryEnergy.Component.Balance
import PrimaryEnergy.Component.Selection
import PrimaryEnergy.Component.Text
import PrimaryEnergy.Factor.Completion
import PrimaryEnergy.Factor.Perimeter
import PrimaryEnergy.Factor.Pruning
import PrimaryEnergy.Factor.Text
import PrimaryEnergy.Factor.Uniqueness

namespace PrimaryEnergy

/-- How much an event matters. -/
inductive Level where
  | debug | info | warning
deriving DecidableEq, Repr

def Level.name : Level → String
  | debug => "DEBUG"
  | info => "INFO"
  | warning => "WARNING"

/-- Something that is reported. -/
inductive Event where
  /-- A metadata text that should be a pair and is none. -/
  | ignoredMetadata (key value : String)
  /-- Keys that several rows have. -/
  | repeatedKeys (keys : List Factor.Key)
  /-- The value of a user family. -/
  | resolved (family : Family) (r : Family.Resolved)
  /-- A row that completion added. -/
  | derived (row : Factor Float)
  /-- A table was completed and has so many rows. -/
  | completed (rows : Nat)
  /-- So many rows were converted to the nearby perimeter. -/
  | converted (rows : Nat)
  /-- A table was pruned. -/
  | pruned (before after : Nat)
  /-- A service lacks production of ambient energy. -/
  | unbalanced (service : Service) (energy : Float)
  /-- So many productions of ambient energy were added. -/
  | balanced (rows : Nat)
  /-- A service is assigned its share of the production for no service in particular. -/
  | reassigned (service : Service) (share : Float)
deriving DecidableEq, Repr

namespace Event

/-- How much an event matters. -/
def level : Event → Level
  | ignoredMetadata .. | repeatedKeys _ => .warning
  | resolved .. | derived _ | unbalanced .. | reassigned .. => .debug
  | completed _ | converted _ | pruned .. | balanced _ => .info

/-- Where a value was found, as messages tell it. -/
def originText : Family.Origin → String
  | .argument => "from argument"
  | .metadata => "from metadata"
  | .table => "from factor table"
  | .regulation => "regulatory default"

/-- The text of an event. -/
def message : Event → String
  | ignoredMetadata key value =>
    "Ignoring metadata " ++ key ++ ": expected \"ren, nren\", got " ++ Text.quoted value
  | repeatedKeys keys =>
    "Duplicated weighting factor keys (first row is used): " ++ DuplicatedKeys.described keys
  | resolved i r =>
    "User factor " ++ i.name ++ " = " ++ r.value.text ++ " (" ++ originText r.origin ++ ")"
  | derived row => "Generated weighting factor " ++ Text.joinText ", " row.fields
  | completed n => "Completed weighting factor table with " ++ n.repr ++ " rows"
  | converted n => "Converted " ++ n.repr ++ " weighting factors to the nearby perimeter"
  | pruned n m => "Pruned weighting factors from " ++ n.repr ++ " to " ++ m.repr ++ " rows"
  | unbalanced s x =>
    "Balancing " ++ Decimal.fixed 2 x ++ " kWh of ambient energy for service " ++ Token.text s
  | balanced n => "Added " ++ n.repr ++ " ambient energy production components"
  | reassigned s x =>
    "Reassigning undefined electricity production to " ++ Token.text s ++ " (share " ++
      Decimal.fixed 3 x ++ ")"

end Event

/-! ## What operations report -/

/-- Looking up a pair in the metadata. -/
def Metadata.pairEvents (m : Metadata) (k : String) : List Event :=
  (m.rejected? k).toList.map (.ignoredMetadata k)

namespace FactorTable

/-- Checking the keys. -/
def checkEvents (t : FactorTable Float) (strict : Bool) : List Event :=
  if strict || t.repeatedKeys.isEmpty then [] else [.repeatedKeys t.repeatedKeys]

def resolveEvents (t : FactorTable Float) (o : Overrides) (defaults : PerFamily (Pair Float)) :
    List Event :=
  Family.all.flatMap fun i =>
    t.metadata.pairEvents i.metaKey ++ [.resolved i ((t.resolve o defaults).get i)]

/-- Completing a table with given values. -/
def fixEvents (t : FactorTable Float) (values defaults : PerFamily (Pair Float)) (strip : Bool) :
    List Event :=
  (t.derivation values defaults).added.map .derived ++
    match t.fix values defaults strip with
    | .ok done => [.completed done.rows.length]
    | .error _ => []

def completeEvents (t : FactorTable Float) (o : Overrides) (defaults : PerFamily (Pair Float))
    (strip : Bool) : List Event :=
  t.resolveEvents o defaults ++ t.fixEvents (t.userValues o defaults) defaults strip

/-- Converting a table to the nearby perimeter. -/
def nearbyEvents (t : FactorTable Float) : List Event := [.converted t.distantCount]

def pruneEvents (t : FactorTable Float) (rows : List (Component Float)) : List Event :=
  [.pruned t.rows.length (t.prune rows).rows.length]

end FactorTable

namespace ComponentTable

/-- Finding out which productions are missing. -/
def unbalancedEvents (t : ComponentTable Float) : List Event :=
  (Component.missingProduction t.rows).map fun c => .unbalanced c.service (Series.total c.values)

/-- Balancing ambient energy. -/
def balanceEvents (t : ComponentTable Float) : List Event :=
  t.unbalancedEvents ++
    match Component.missingProduction t.rows with
    | [] => []
    | added => [.balanced added.length]

def selectEvents (t : ComponentTable Float) (s : Service) : List Event :=
  match Component.reassigned t.rows s with
  | [] => []
  | _ => [.reassigned s (Component.electricityShare t.rows s)]

end ComponentTable

end PrimaryEnergy
