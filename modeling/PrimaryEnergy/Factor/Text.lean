/-
  The text form of factor tables.

  * `FactorTable.read` reads a text: a row holds the four words of the key and the
    two numbers, and a line whose first field is `vector` is a heading;
  * `FactorTable.text` writes metadata, the heading and the rows, with three decimals.
-/
import PrimaryEnergy.Factor.Basic
import PrimaryEnergy.Table.Text
import PrimaryEnergy.Text.LetterCase

namespace PrimaryEnergy

open Text TableText

namespace Factor

/-- The first field of a heading. -/
def headingWord : List Char := ['v', 'e', 'c', 't', 'o', 'r']

/-- The factor with these six fields; else the number of wrong ones. -/
def ofFields (c s d t r n comment : List Char) : Except Nat (Factor Float) :=
  match Token.ofChars? c, Token.ofChars? s, Token.ofChars? d, Token.ofChars? t,
    Decimal.fieldNumber? r, Decimal.fieldNumber? n with
  | some c, some s, some d, some t, some r, some n =>
    .ok ⟨⟨c, s, d, t⟩, ⟨r, n⟩, String.ofList comment⟩
  | c, s, d, t, r, n =>
    .error ([c.isNone, s.isNone, d.isNone, t.isNone, r.isNone, n.isNone].count true)

/-- Reads the row of a line. -/
def readRow : RowReader (Factor Float) := fun raw fields comment =>
  if fields.head?.map lowerAscii = some headingWord then .ok none
  else match fields with
    | [c, s, d, t, r, n] =>
      match ofFields c s d t r n comment with
      | .ok f => .ok (some f)
      | .error k => .error (.malformedFactor (String.ofList raw) k)
    | _ => .error (.factorFields (String.ofList raw))

/-- The fields of a row. -/
def fields (f : Factor Float) : List String :=
  f.key.tokens ++ [Decimal.fixed 3 f.value.ren, Decimal.fixed 3 f.value.nren]

def line (f : Factor Float) : String := rowLine f.fields f.comment

end Factor

namespace FactorTable

/-- The names of the columns. -/
def heading : String := "vector, fuente, uso, step, ren, nren"

def read (s : String) : Except TableFault (FactorTable Float) := readWith Factor.readRow s

def text (t : FactorTable Float) : String :=
  joinLines (t.metadata.map metaLine ++ heading :: t.rows.map Factor.line)

end FactorTable

end PrimaryEnergy
