/-
  The factors that the user may define.

  There are four families of them.  Each has a name, a metadata key that its value is
  recorded under, a pattern that finds a row to take it from and the key of the row
  that completion adds for it.

  * `Metadata.pair?` is the pair in the first entry with a key, and `rejected?` the text of this
    entry if it is no pair; a later entry with the same key never counts;
  * `Family.resolve` takes the value of a family, in this order, from the argument, the
    metadata, the rows of the table and the regulation;
  * `recordValues` writes the values into the metadata, with three decimals.
-/
import PrimaryEnergy.Factor.Basic
import PrimaryEnergy.Metadata
import PrimaryEnergy.Pair

namespace PrimaryEnergy

/-! ## Pairs in metadata -/

namespace Metadata

/-- The pair in the first entry with a key. -/
def pair? (m : Metadata) (k : String) : Option (Pair Float) :=
  (m.get? k).bind fun v => (Pair.ofText v).toOption

/-- The text of the first entry with a key, if it is no pair. -/
def rejected? (m : Metadata) (k : String) : Option String :=
  (m.get? k).filter fun v => (Pair.ofText v).toOption.isNone

end Metadata

/-! ## Families -/

/-- The families of factors that the user may define. -/
inductive Family where
  /-- Cogenerated electricity exported to the grid. -/
  | cogenToGrid
  /-- Cogenerated electricity exported to uses outside the assessment. -/
  | cogenToOther
  | district1
  | district2
deriving DecidableEq, Repr

/-- One value for each family. -/
structure PerFamily (β : Type) where
  cogenToGrid : β
  cogenToOther : β
  district1 : β
  district2 : β
deriving DecidableEq, Repr

namespace PerFamily

variable {β : Type}

/-- The value for a family. -/
def get (v : PerFamily β) : Family → β
  | .cogenToGrid => v.cogenToGrid
  | .cogenToOther => v.cogenToOther
  | .district1 => v.district1
  | .district2 => v.district2

/-- The values of a function. -/
def of (f : Family → β) : PerFamily β :=
  ⟨f .cogenToGrid, f .cogenToOther, f .district1, f .district2⟩

@[simp] theorem get_of (f : Family → β) (i : Family) : (of f).get i = f i := by cases i <;> rfl

end PerFamily

namespace Family

/-- All families, in the order in which they are resolved and recorded. -/
def all : List Family := [.cogenToGrid, .cogenToOther, .district1, .district2]

/-- What the family is called in messages, configurations and options. -/
def name : Family → String
  | cogenToGrid => "cogen"
  | cogenToOther => "cogennepb"
  | district1 => "red1"
  | district2 => "red2"

/-- The metadata key that the value is recorded under. -/
def metaKey : Family → String
  | cogenToGrid => "CTE_COGEN"
  | cogenToOther => "CTE_COGENNEPB"
  | district1 => "CTE_RED1"
  | district2 => "CTE_RED2"

/-- The rows that the value may be taken from. -/
def pattern : Family → Factor.Pattern
  | cogenToGrid => ⟨none, some .cogeneration, some .toGrid, some .a⟩
  | cogenToOther => ⟨none, some .cogeneration, some .toOtherUses, some .a⟩
  | district1 => ⟨some .district1, none, some .supply, some .a⟩
  | district2 => ⟨some .district2, none, some .supply, some .a⟩

/-- The key of the row that is added for the family. -/
def key : Family → Factor.Key
  | cogenToGrid => ⟨.electricity, .cogeneration, .toGrid, .a⟩
  | cogenToOther => ⟨.electricity, .cogeneration, .toOtherUses, .a⟩
  | district1 => ⟨.district1, .grid, .supply, .a⟩
  | district2 => ⟨.district2, .grid, .supply, .a⟩

/-! ## Resolution -/

/-- Where a value was found. -/
inductive Origin where
  | argument | metadata | table | regulation
deriving DecidableEq, Repr

/-- A value and where it was found. -/
structure Resolved where
  value : Pair Float
  /-- Where it was found. -/
  origin : Origin
deriving DecidableEq, Repr

/-- The value of a family: the argument, else the pair in the metadata, else the value of
    the first row with the pattern, else the default. -/
def resolve (i : Family) (t : FactorTable Float) (argument : Option (Pair Float))
    (default : Pair Float) : Resolved :=
  match argument, t.metadata.pair? i.metaKey, Factor.find? t.rows i.pattern with
  | some p, _, _ => ⟨p, .argument⟩
  | none, some p, _ => ⟨p, .metadata⟩
  | none, none, some f => ⟨f.value, .table⟩
  | none, none, none => ⟨default, .regulation⟩

end Family

/-- Values that are given explicitly. -/
abbrev Overrides := PerFamily (Option (Pair Float))

/-- No value is given explicitly. -/
def Overrides.none : Overrides := ⟨.none, .none, .none, .none⟩

namespace FactorTable

/-- How each family is resolved. -/
def resolve (t : FactorTable Float) (o : Overrides) (defaults : PerFamily (Pair Float)) :
    PerFamily Family.Resolved :=
  .of fun i => i.resolve t (o.get i) (defaults.get i)

/-- The value of each family. -/
def userValues (t : FactorTable Float) (o : Overrides) (defaults : PerFamily (Pair Float)) :
    PerFamily (Pair Float) :=
  .of fun i => ((t.resolve o defaults).get i).value

/-- Records the values in the metadata. -/
def recordValues (t : FactorTable Float) (values : PerFamily (Pair Float)) : FactorTable Float :=
  Family.all.foldl (fun t i => t.setMeta i.metaKey (values.get i).metaText) t

@[simp] theorem rows_recordValues (t : FactorTable Float) (values : PerFamily (Pair Float)) :
    (t.recordValues values).rows = t.rows := rfl

end FactorTable

end PrimaryEnergy
