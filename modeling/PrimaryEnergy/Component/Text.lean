/-
  The text form of component tables.

  * `ComponentTable.read` reads a text.  A row may start with a number, which is
    dropped, then come carrier, type and subtype, perhaps the service, and at least
    one value; all rows must have the same number of values;
  * `ComponentTable.text` writes metadata and rows, with two decimals.
-/
import PrimaryEnergy.Component.Basic
import PrimaryEnergy.Decimal.Fixed
import PrimaryEnergy.Decimal.Numeral
import PrimaryEnergy.Table.Text
import PrimaryEnergy.Text.Digit

namespace PrimaryEnergy

open Text TableText

namespace Component

/-- Whether a field is a number of the row: minus signs, then digits of any script. -/
def isRowNumber (s : List Char) : Bool :=
  let ds := s.dropWhile (· == '-')
  !ds.isEmpty && ds.all isDigit

/-- The fields without the number of the row. -/
def dropRowNumber : List (List Char) → List (List Char)
  | f :: fs => if isRowNumber f then fs else f :: fs
  | [] => []

/-- The service and the values in the fields after the subtype; the service may be left
    out. -/
def splitService : List (List Char) → Service × List (List Char)
  | f :: fs =>
    match Token.ofChars? f with
    | some s => (s, fs)
    | none => (.undefined, f :: fs)
  | [] => (.undefined, [])

/-- The carrier and the flow with these tokens; else the number of wrong ones.  A subtype
    that does not go with the type counts as one. -/
def ofTokens (c t s : List Char) : Except Nat (Carrier × Flow) :=
  match Token.ofChars? c, Token.ofChars? t, Token.ofChars? s with
  | some c, some t, some s =>
    match Flow.of? t s with
    | some f => .ok (c, f)
    | none => .error 1
  | c, t, s => .error ([c.isNone, t.isNone, s.isNone].count true)

/-- Reads the row of a line. -/
def readRow : RowReader (Component Float) := fun raw fields comment =>
  match dropRowNumber fields with
  | c :: t :: s :: x :: xs =>
    let (service, values) := splitService (x :: xs)
    match values, values.mapM Decimal.freeNumber? with
    | _ :: _, some vs =>
      match ofTokens c t s with
      | .ok (carrier, flow) => .ok (some ⟨carrier, flow, service, vs, String.ofList comment⟩)
      | .error k => .error (.malformedComponent (String.ofList raw) k)
    | _, _ => .error (.nonNumeric (String.ofList raw))
  | _ => .error (.tooFewFields (String.ofList raw))

/-- The fields of a row. -/
def fields (c : Component Float) : List String :=
  [Token.text c.carrier, Token.text c.flow.type, Token.text c.flow.subtype, Token.text c.service,
    joinText ", " (c.values.map (Decimal.fixed 2))]

def line (c : Component Float) : String := rowLine c.fields c.comment

end Component

namespace ComponentTable

/-- The numbers of values that occur, in ascending order. -/
def lengths (rows : List (Component Float)) : List Nat :=
  (distinct (rows.map (·.values.length))).mergeSort (· ≤ ·)

def read (s : String) : Except TableFault (ComponentTable Float) :=
  match readWith Component.readRow s with
  | .ok t => if (lengths t.rows).length ≤ 1 then .ok t else .error (.mixedLengths (lengths t.rows))
  | .error e => .error e

def text (t : ComponentTable Float) : String :=
  joinLines (t.metadata.map metaLine ++ t.rows.map Component.line)

end ComponentTable

end PrimaryEnergy
