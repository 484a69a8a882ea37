/-
  Numbers read from text.

  A numeral is an optional sign followed by digits with at most one point among or
  around them and an optional exponent, or by one of the words `inf`, `infinity`
  and `nan` in any case.  Its value is the double nearest to it.  Two grammars
  differ in what they allow around and inside the numeral:

  * `freeNumber?` (values of component tables, pairs): white space around it, decimal
    digits of any script, underscores between digits;
  * `fieldNumber?` (fields of records and factor tables): white space around it,
    digits 0 to 9; failing that, all underscores are dropped if none stands at an
    end or beside another, and the rest has to be a numeral as it stands.
-/
import PrimaryEnergy.Decimal.Double
import PrimaryEnergy.Text.Blank
import PrimaryEnergy.Text.Digit
import PrimaryEnergy.Text.LetterCase

namespace PrimaryEnergy.Decimal

open Text

/-- What a numeral says. -/
inductive Numeral where
  | nan
  | infinite (negative : Bool)
  /-- The number `± mantissa · 10 ^ exponent`. -/
  | decimal (negative : Bool) (mantissa : Nat) (exponent : Int)
deriving DecidableEq, Repr

namespace Numeral

/-- The double nearest to the numeral. -/
def toFloat : Numeral → Float
  | nan => notANumber
  | infinite negative => infinity negative
  | decimal negative m e => nearestDecimal negative m e

/-- Whether a character is one of the digits 0 to 9. -/
def isPlainDigit (c : Char) : Bool := '0' ≤ c && c ≤ '9'

/-- The number written by digits 0 to 9. -/
def valueOf (ds : List Char) : Nat := ds.foldl (fun n c => 10 * n + (c.toNat - 48)) 0

/-- An optional sign and what follows it. -/
def signed : List Char → Bool × List Char
  | '-' :: r => (true, r)
  | '+' :: r => (false, r)
  | r => (false, r)

/-- The exponent after its mark: an optional sign and digits up to the end. -/
def exponent? (s : List Char) : Option Int :=
  let (negative, ds) := signed s
  if ds.isEmpty || !ds.all isPlainDigit then none
  else if negative then some (-(valueOf ds : Int)) else some (valueOf ds)

/-- The fraction digits after an optional point, and what follows them. -/
def fraction : List Char → List Char × List Char
  | '.' :: r => (r.takeWhile isPlainDigit, r.dropWhile isPlainDigit)
  | r => ([], r)

/-- A number without sign: mantissa and exponent. -/
def unsigned? (s : List Char) : Option (Nat × Int) :=
  let whole := s.takeWhile isPlainDigit
  let (part, rest) := fraction (s.dropWhile isPlainDigit)
  if whole.isEmpty && part.isEmpty then none
  else
    let mantissa := valueOf (whole ++ part)
    match rest with
    | [] => some (mantissa, -(part.length : Int))
    | c :: r =>
      if c = 'e' ∨ c = 'E' then (exponent? r).map fun e => (mantissa, e - part.length) else none

/-- Reads a numeral that is the whole text. -/
def ofChars? (s : List Char) : Option Numeral :=
  let (negative, body) := signed s
  let word := lowerAscii body
  if word = ['i', 'n', 'f'] ∨ word = ['i', 'n', 'f', 'i', 'n', 'i', 't', 'y'] then
    some (infinite negative)
  else if word = ['n', 'a', 'n'] then some nan
  else (unsigned? body).map fun (m, e) => decimal negative m e

/-- Drops underscores, each of which has to stand between two digits; `before` tells
    whether the character in front is a digit. -/
def joinDigits? (before : Bool) : List Char → Option (List Char)
  | [] => some []
  | '_' :: c :: r =>
    if before && isPlainDigit c then (joinDigits? true r).map (c :: ·) else none
  | c :: r => if c = '_' then none else (joinDigits? (isPlainDigit c) r).map (c :: ·)

/-- Decimal digits of all scripts written as 0 to 9. -/
def plainDigits (s : List Char) : List Char :=
  s.map fun c => match decimalDigit? c with
    | some d => Char.ofNat (48 + d)
    | none => c

/-- Drops all underscores, none of which may stand at an end or beside another. -/
def dropUnderscores? (s : List Char) : Option (List Char) :=
  let doubled := (s.zip (s.drop 1)).any fun (a, b) => a = '_' && b = '_'
  if s.head? = some '_' || s.getLast? = some '_' || doubled then none
  else some (s.filter (· ≠ '_'))

end Numeral

/-- Reads a number of a free text. -/
def freeNumber? (s : List Char) : Option Float :=
  (Numeral.joinDigits? false (Numeral.plainDigits (trimSpace s))).bind fun t =>
    (Numeral.ofChars? t).map Numeral.toFloat

/-- Reads a number of a record field. -/
def fieldNumber? (s : List Char) : Option Float :=
  match Numeral.ofChars? (trimSpace s) with
  | some n => some n.toFloat
  | none => ((Numeral.dropUnderscores? s).bind Numeral.ofChars?).map Numeral.toFloat

end PrimaryEnergy.Decimal
