/-
  The text form of tables.

  A text is read line by line.  A line without its surrounding blanks is ignored if
  it is empty or a remark, holds metadata if it starts with `#META`, and else holds
  a row: fields with commas between them and, after `#`, a comment.

  * `readWith` reads a text, given how the row of a line is read: the first faulty
    line decides;
  * `metaLine` and `rowLine` write the lines.
-/
import PrimaryEnergy.Table.Basic
import PrimaryEnergy.Text.Lines

namespace PrimaryEnergy

/-- Why a text is no table. -/
inductive TableFault where
  /-- A metadata line without a key or without a colon. -/
  | malformedMeta (line : String)
  /-- A factor row that does not have six fields. -/
  | factorFields (line : String)
  /-- A factor row with so many wrong fields. -/
  | malformedFactor (line : String) (faults : Nat)
  /-- A component row without a value. -/
  | tooFewFields (line : String)
  /-- A component row with a value that is no number. -/
  | nonNumeric (line : String)
  /-- A component row with so many wrong words. -/
  | malformedComponent (line : String) (faults : Nat)
  /-- Component rows with different numbers of values. -/
  | mixedLengths (lengths : List Nat)
deriving DecidableEq, Repr

/-- What a reader is told about it. -/
def TableFault.message : TableFault → String
  | malformedMeta line => "Malformed metadata line: " ++ line
  | factorFields line => "Weighting factor line must have 6 fields: " ++ line
  | malformedFactor line n =>
    "Malformed weighting factor line: " ++ line ++ " (" ++ n.repr ++ " errors)"
  | tooFewFields line => "Component line has too few fields: " ++ line
  | nonNumeric line => "Component line has non numeric values: " ++ line
  | malformedComponent line n =>
    "Malformed component line: " ++ line ++ " (" ++ n.repr ++ " errors)"
  | mixedLengths ls =>
    "Components have different number of values: [" ++ Text.joinText ", " (ls.map Nat.repr) ++ "]"

namespace TableText

open Text

/-! ## Reading -/

/-- What metadata lines start with. -/
def metaMark : List Char := ['#', 'M', 'E', 'T', 'A']

/-- What a line is. -/
inductive Line where
  /-- A blank line or a remark. -/
  | ignored
  /-- Metadata: what follows the mark. -/
  | metadata (body : List Char)
  /-- A row: its fields and its comment. -/
  | row (fields : List (List Char)) (comment : List Char)
deriving DecidableEq, Repr

/-- Tells what a line is, which has no blanks around it. -/
def Line.of (line : List Char) : Line :=
  if line.isEmpty then .ignored
  else if metaMark.isPrefixOf line then .metadata (trim (line.drop metaMark.length))
  else if line.head? = some '#' then .ignored
  else
    let parts := cut '#' line
    .row ((fields ',' (trim parts.1)).map trim) (trim (parts.2.getD []))

/-- The key and the text of a metadata line, cut at the first colon. -/
def metaEntry? (body : List Char) : Option MetaEntry :=
  match cut ':' body with
  | (key, some value) =>
    if trim key = [] then none
    else some ⟨String.ofList (trim key), String.ofList (trim value)⟩
  | (_, none) => none

/-- How the row of a line is read, given the whole line, the fields and the comment; a
    line may turn out to hold no row. -/
abbrev RowReader (ρ : Type) :=
  List Char → List (List Char) → List Char → Except TableFault (Option ρ)

variable {ρ : Type}

/-- Reads a single line. -/
def readLine (row : RowReader ρ) (raw : List Char) : Except TableFault (Table ρ) :=
  match Line.of (trim raw) with
  | .ignored => .ok {}
  | .metadata body =>
    match metaEntry? body with
    | some e => .ok ⟨[e], []⟩
    | none => .error (.malformedMeta (String.ofList (trim raw)))
  | .row fields comment =>
    match row raw fields comment with
    | .ok r => .ok ⟨[], r.toList⟩
    | .error e => .error e

/-- Reads a text. -/
def readWith (row : RowReader ρ) (s : String) : Except TableFault (Table ρ) :=
  match (splitLines s.toList).mapM (readLine row) with
  | .ok parts => .ok (Table.concat parts)
  | .error e => .error e

/-! ## Writing -/

/-- The line of a metadata entry. -/
def metaLine (e : MetaEntry) : String := "#META " ++ e.key ++ ": " ++ e.value

/-- The line of a row: its fields and, if there is one, its comment. -/
def rowLine (fields : List String) (comment : String) : String :=
  joinText ", " fields ++ if comment = "" then "" else " # " ++ comment

end TableText

end PrimaryEnergy
