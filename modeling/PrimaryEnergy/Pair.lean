/-
  Primary energy in two parts, renewable and non renewable.

  * `Pair` and its arithmetic: `total`, `add`, `scale` and `renewableShare`, which
    is zero when the total is zero or negative;
  * `Pair.ofText` reads two numbers with a comma between them, `Pair.metaText`
    writes them with three decimals, `Pair.text` is the form used in messages.
-/
import PrimaryEnergy.Decimal.Fixed
import PrimaryEnergy.Decimal.Numeral
import PrimaryEnergy.Text.Lines
import PrimaryEnergy.Text.Quoted

namespace PrimaryEnergy

/-- Primary energy, or primary energy per unit of delivered energy. -/
structure Pair (α : Type) where
  /-- The renewable part. -/
  ren : α
  /-- The non renewable part. -/
  nren : α
deriving DecidableEq, Repr

/-- Why a text is no number, or no pair of numbers. -/
inductive NumberFault where
  /-- The text is not two pieces with a comma between them. -/
  | notAPair (text : String)
  | notANumber (text : String)
deriving DecidableEq, Repr

/-- What a reader is told about it. -/
def NumberFault.message : NumberFault → String
  | notAPair text => "Expected 'ren, nren' pair, got: " ++ Text.quoted text
  | notANumber text => "could not convert string to float: " ++ Text.quoted text

/-- Reads a number of a free text. -/
def number (s : List Char) : Except NumberFault Float :=
  match Decimal.freeNumber? s with
  | some x => .ok x
  | none => .error (.notANumber (String.ofList s))

namespace Pair

variable {α : Type}

/-! ## Arithmetic -/

/-- Both parts together. -/
def total [Add α] (p : Pair α) : α := p.ren + p.nren

/-- The sum, part by part. -/
def add [Add α] (p p' : Pair α) : Pair α := ⟨p.ren + p'.ren, p.nren + p'.nren⟩

/-- Both parts multiplied by a number. -/
def scale [Mul α] (p : Pair α) (k : α) : Pair α := ⟨p.ren * k, p.nren * k⟩

/-- The renewable part of the total; zero if the total is zero or negative. -/
def renewableShare [Zero α] [Add α] [Div α] [LE α] [DecidableLE α] (p : Pair α) : α :=
  if p.total ≤ 0 then 0 else p.ren / p.total

/-- Whether both parts differ by less than the tolerance. -/
def isClose (p p' : Pair Float) (tolerance : Float) : Bool :=
  (p.ren - p'.ren).abs < tolerance && (p.nren - p'.nren).abs < tolerance

/-- The tolerance of comparisons: one millionth. -/
def tolerance : Float := Decimal.nearestDecimal false 1 (-6)

/-! ## Text -/

/-- The two numbers with three decimals, as metadata hold them. -/
def metaText (p : Pair Float) : String := Decimal.fixed 3 p.ren ++ ", " ++ Decimal.fixed 3 p.nren

/-- The pair as messages show it. -/
def text (p : Pair Float) : String :=
  "\x7b ren: " ++ Decimal.fixed 3 p.ren ++ ", nren: " ++ Decimal.fixed 3 p.nren ++ " \x7d"

/-- Reads two numbers with a comma between them. -/
def ofText (s : String) : Except NumberFault (Pair Float) :=
  match (Text.fields ',' s.toList).map Text.trim with
  | [a, b] => do
    let ren ← number a
    let nren ← number b
    return ⟨ren, nren⟩
  | _ => .error (.notAPair s)

end Pair

end PrimaryEnergy
