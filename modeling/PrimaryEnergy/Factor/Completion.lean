/-
  Completion of factor tables.

  A list of rules is applied in order.  A rule looks at the rows so far and adds at
  most one row at the end, or fails; rows that are there are never changed.

  * `Rule.step` is what a rule adds, `derive` what a list of rules adds, up to the
    first failure;
  * `rules` are the rules of the standard;
  * `FactorTable.fix` completes a table with given values of the user families,
    `FactorTable.complete` resolves these values first and records them.
-/
import PrimaryEnergy.Factor.Family

namespace PrimaryEnergy

/-- Why a table cannot be completed. -/
inductive CompletionFault where
  /-- These carriers have no row for supply from the grid. -/
  | missingGrid (carriers : List Carrier)
  /-- The row with the first key cannot be derived, since there is none with the second. -/
  | missingSource (key required : Factor.Key)
deriving DecidableEq, Repr

/-- What a reader is told about it. -/
def CompletionFault.message : CompletionFault → String
  | missingGrid carriers =>
    "Grid supply weighting factors are not defined for carriers: " ++
      Text.joinText ", " (carriers.map Token.text) ++
      ". Add a \"CARRIER, RED, SUMINISTRO, A, fren, fnren\" row for each of them"
  | missingSource key required =>
    "Supply weighting factor \"" ++ required.text ++ "\" is not defined for carrier " ++
      Token.text key.carrier ++ " and is required to derive the export factor \"" ++ key.text ++
      "\""

namespace Completion

/-! ## Rules -/

/-- A rule of completion. -/
inductive Rule where
  /-- Adds a row unless the pattern matches one. -/
  | add (absent : Factor.Pattern) (row : Factor Float)
  /-- Adds a row unless the pattern matches one, if the table has the carrier. -/
  | addForCarrier (carrier : Carrier) (absent : Factor.Pattern) (row : Factor Float)
  /-- Requires supply from the grid for every carrier. -/
  | gridSupplied
  /-- Adds a row with the first key and the value of the row with the second key, unless
      the first key is there. -/
  | copy (key source : Factor.Key) (comment : String)
deriving DecidableEq, Repr

def gridSupply (c : Carrier) : Factor.Key := ⟨c, .grid, .supply, .a⟩

/-- The row that a rule adds, if any. -/
def Rule.step (rows : List (Factor Float)) : Rule → Except CompletionFault (Option (Factor Float))
  | add absent row => .ok (if Factor.has rows absent then none else some row)
  | addForCarrier c absent row =>
    .ok (if c ∈ Factor.carriers rows ∧ ¬ Factor.has rows absent then some row else none)
  | gridSupplied =>
    match (Factor.carriers rows).filter fun c => !Factor.has rows (gridSupply c).pattern with
    | [] => .ok none
    | c :: cs => .error (.missingGrid (c :: cs))
  | copy key source comment =>
    if Factor.has rows key.pattern then .ok none
    else match Factor.find? rows source.pattern with
      | some f => .ok (some ⟨key, f.value, comment⟩)
      | none => .error (.missingSource key source)

/-- What rules add, and the failure that stopped them, if any. -/
structure Derivation where
  /-- The rows that are added. -/
  added : List (Factor Float)
  /-- The failure. -/
  fault : Option CompletionFault
deriving DecidableEq, Repr

/-- Applies rules in order until one fails. -/
def derive (rows : List (Factor Float)) : List Rule → Derivation
  | [] => ⟨[], none⟩
  | r :: rs =>
    match r.step rows with
    | .error e => ⟨[], some e⟩
    | .ok none => derive rows rs
    | .ok (some f) =>
      let d := derive (rows ++ [f]) rs
      ⟨f :: d.added, d.fault⟩

/-! ## The rules of the standard -/

/-- Ambient energy comes free of charge from the site. -/
def ambientOnsite : Factor Float :=
  ⟨⟨.ambient, .onsite, .supply, .a⟩, ⟨1, 0⟩,
    "Recursos usados para obtener energía térmica del medioambiente"⟩

/-- A fictitious grid supplies ambient energy. -/
def ambientGrid : Factor Float :=
  ⟨⟨.ambient, .grid, .supply, .a⟩, ⟨1, 0⟩,
    "Recursos usados para obtener energía térmica del medioambiente (red ficticia)"⟩

/-- Electricity generated on site is renewable. -/
def electricityOnsite : Factor Float :=
  ⟨⟨.electricity, .onsite, .supply, .a⟩, ⟨1, 0⟩,
    "Recursos usados para generar electricidad in situ"⟩

/-- The impact of cogeneration is accounted for in the carrier that feeds it. -/
def cogeneratedSupply : Factor Float :=
  ⟨⟨.electricity, .cogeneration, .supply, .a⟩, ⟨0, 0⟩,
    "Factor de paso generado (el impacto de la cogeneración se tiene en cuenta " ++
      "en el vector de suministro)"⟩

/-- Tells whether a value is the default one. -/
def originNote (value default : Pair Float) : String :=
  if value.isClose default Pair.tolerance then "(Valor predefinido)" else "(Valor de usuario)"

/-- The comments on energy exported in step A. -/
def exportNote : Dest → String
  | .toOtherUses => "Recursos usados para producir la energía exportada a usos no EPB"
  | _ => "Recursos usados para producir la energía exportada a la red"

/-- The comments on cogenerated electricity exported in step A. -/
def cogeneratedNote : Dest → String
  | .toOtherUses =>
    "Recursos usados para producir la electricidad cogenerada y exportada a usos no EPB " ++
      "(ver EN ISO 52000-1 9.6.6.2.3)"
  | _ =>
    "Recursos usados para producir la electricidad cogenerada y exportada a la red " ++
      "(ver EN ISO 52000-1 9.6.6.2.3)"

/-- The comments on energy exported in step B. -/
def savedNote : Dest → String
  | .toOtherUses =>
    "Recursos ahorrados a la red por la energía producida in situ y exportada a usos no EPB"
  | _ => "Recursos ahorrados a la red por la energía producida in situ y exportada a la red"

/-- Step A of an export: the resources used to produce the energy.  For cogeneration they
    are set by the user, else they are those of the supply from the same source. -/
def producedRule (c : Carrier) (s : Source) (d : Dest) (value default : Pair Float) : Rule :=
  match s with
  | .cogeneration =>
    let key : Factor.Key := ⟨c, s, d, .a⟩
    .add key.pattern ⟨key, value, cogeneratedNote d ++ " " ++ originNote value default⟩
  | s => .copy ⟨c, s, d, .a⟩ ⟨c, s, .supply, .a⟩ (exportNote d)

/-- Step B of an export: the resources saved at the grid. -/
def savedRule (c : Carrier) (s : Source) (d : Dest) : Rule :=
  .copy ⟨c, s, d, .b⟩ (gridSupply c) (savedNote d)

def exportRules (values defaults : PerFamily (Pair Float)) (c : Carrier) (s : Source) : List Rule :=
  [producedRule c s .toGrid values.cogenToGrid defaults.cogenToGrid,
   producedRule c s .toOtherUses values.cogenToOther defaults.cogenToOther,
   savedRule c s .toGrid, savedRule c s .toOtherUses]

/-- The carriers that are exported, with their sources. -/
def exported : List (Carrier × Source) :=
  [(.electricity, .onsite), (.electricity, .cogeneration), (.ambient, .onsite)]

/-- The supply of district network 1. -/
def district1Supply (value : Pair Float) : Factor Float :=
  ⟨Family.district1.key, value,
    "Recursos usados para suministrar energía de la red de distrito 1 (definible por el usuario)"⟩

/-- The supply of district network 2. -/
def district2Supply (value : Pair Float) : Factor Float :=
  ⟨Family.district2.key, value,
    "Recursos usados para suministrar energía de la red de distrito 2 (definible por el usuario)"⟩

/-- The rules before those for exports. -/
def supplyRules : List Rule :=
  [.add ambientOnsite.key.pattern ambientOnsite,
   .add ambientGrid.key.pattern ambientGrid,
   .addForCarrier .electricity ⟨some .electricity, some .onsite, some .supply, none⟩
     electricityOnsite,
   .gridSupplied,
   .add ⟨none, some .cogeneration, some .supply, none⟩ cogeneratedSupply]

/-- The rules after those for exports. -/
def districtRules (values : PerFamily (Pair Float)) : List Rule :=
  [.add Family.district1.key.pattern (district1Supply values.district1),
   .add Family.district2.key.pattern (district2Supply values.district2)]

/-- All rules, in order. -/
def rules (values defaults : PerFamily (Pair Float)) : List Rule :=
  supplyRules ++ exported.flatMap (fun (c, s) => exportRules values defaults c s) ++
    districtRules values

end Completion

namespace FactorTable

open Completion

/-- What the rules add to a table. -/
def derivation (t : FactorTable Float) (values defaults : PerFamily (Pair Float)) : Derivation :=
  derive t.rows (rules values defaults)

/-- The table without factors for uses outside the assessment. -/
def withoutOtherUses (t : FactorTable Float) : FactorTable Float :=
  { t with rows := t.rows.filter fun f => f.key.dest != .toOtherUses }

/-- Completes a table with these values of the families; the rows for uses outside the
    assessment are removed at the end if `strip` is set. -/
def fix (t : FactorTable Float) (values defaults : PerFamily (Pair Float)) (strip : Bool) :
    Except CompletionFault (FactorTable Float) :=
  match t.derivation values defaults with
  | ⟨added, none⟩ =>
    let full : FactorTable Float := { t with rows := t.rows ++ added }
    .ok (if strip then full.withoutOtherUses else full)
  | ⟨_, some e⟩ => .error e

/-- Resolves the families, records their values and completes the table with them. -/
def complete (t : FactorTable Float) (o : Overrides) (defaults : PerFamily (Pair Float))
    (strip : Bool) : Except CompletionFault (FactorTable Float) :=
  let values := t.userValues o defaults
  (t.recordValues values).fix values defaults strip

/-- What the rules for one export add to a table. -/
def exportDerivation (t : FactorTable Float) (values defaults : PerFamily (Pair Float))
    (c : Carrier) (s : Source) : Derivation :=
  derive t.rows (exportRules values defaults c s)

end FactorTable

end PrimaryEnergy
