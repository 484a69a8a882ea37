/-
  Tables printed in columns.

  Cells are aligned to the right and columns have a space between them.  The numbers of a
  column have the same number of decimals: as many as are needed to show them all with up
  to six, and at least one.  The name of a column of numbers has a space in front.
-/
import PrimaryEnergy.Decimal.Fixed
import PrimaryEnergy.Text.Lines

namespace PrimaryEnergy.Text

/-- A column of a table. -/
inductive Column where
  /-- Texts under a name. -/
  | words (name : String) (cells : List String)
  /-- Numbers under a name. -/
  | numbers (name : String) (cells : List Float)
deriving DecidableEq, Repr

namespace Column

def name : Column → String
  | words n _ => n
  | numbers n _ => n

/-- The number of cells of a column. -/
def length : Column → Nat
  | words _ cs => cs.length
  | numbers _ cs => cs.length

/-- The number of zeros at the end of a text. -/
def endZeros (s : String) : Nat := (s.toList.reverse.takeWhile (· = '0')).length

/-- The number of decimals that a number needs, of at most six. -/
def decimals (x : Float) : Nat := 6 - min 6 (endZeros (Decimal.fixed 6 x))

/-- The texts of numbers in one column. -/
def numberTexts (xs : List Float) : List String :=
  let places := (xs.filter fun x => x.isFinite).foldl (fun n x => max n (decimals x)) 1
  xs.map fun x =>
    if x.isNaN then "NaN"
    else if x.isFinite then
      let s := Decimal.fixed 6 x
      String.ofList (s.toList.take (s.length - (6 - places)))
    else Decimal.fixed 0 x

/-- The texts of a column, the name first. -/
def texts : Column → List String
  | words n cs => n :: cs
  | numbers n cs => (" " ++ n) :: numberTexts cs

/-- The texts of a column with spaces in front, all of one length. -/
def aligned (c : Column) : List String :=
  let width := (c.texts.map (·.length)).foldl max 0
  c.texts.map fun s => String.ofList (List.replicate (width - s.length) ' ') ++ s

end Column

/-- The text of a table; without rows it tells the names of the columns. -/
def grid (cs : List Column) : String :=
  if cs.all fun c => c.length == 0 then
    "Empty DataFrame\nColumns: [" ++ joinText ", " (cs.map (·.name)) ++ "]\nIndex: []"
  else
    let columns := cs.map (·.aligned)
    let height := (columns.map List.length).foldl max 0
    "\n".intercalate ((List.range height).map fun i =>
      joinText " " (columns.map fun c => c.getD i ""))

end PrimaryEnergy.Text
