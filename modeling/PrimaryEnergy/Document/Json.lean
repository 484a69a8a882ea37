/-
  JSON texts.

  `Json.write` lays a document out over several lines, with ASCII characters only: records of
  runs and balances are written so.

  `Json.read?` reads such texts; the order of fields is kept, and numbers with a point or an
  exponent are told apart from those without.  No file of a bundle is read with it.  It is kept
  for programs that are given settings, rows or a regulation as JSON texts: what it returns is
  what `ofDocument` of these records checks.
-/
import PrimaryEnergy.Decimal.Numeral
import PrimaryEnergy.Decimal.Shortest
import PrimaryEnergy.Document.Basic
import PrimaryEnergy.Text.Lines
import PrimaryEnergy.Text.Quoted

namespace PrimaryEnergy.Document.Json

open Text

/-! ## Reading -/

/-- Whether a character may stand between the parts of a text. -/
def isSpace (c : Char) : Bool := c = ' ' || c = '\t' || c = '\n' || c = '\r'

/-- Drops what stands between the parts of a text. -/
def skipSpace (s : List Char) : List Char := s.dropWhile isSpace

/-- The characters that a letter or mark after a backslash stands for. -/
def escapes : List (Char × Char) :=
  [('b', Char.ofNat 8), ('t', '\t'), ('n', '\n'), ('f', Char.ofNat 12), ('r', '\r'),
   ('\\', '\\'), ('/', '/'), (quotationMark, quotationMark)]

/-- Reads what follows a backslash: the character, and how many characters it takes. -/
def escape? (s : List Char) : Option (Char × Nat) :=
  match s with
  | [] => none
  | 'u' :: _ => codedChar? s
  | c :: _ => (escapes.lookup c).map fun d => (d, 1)

/-- Reads a text up to its closing quotation mark, and what follows it; the number bounds
    the steps. -/
def quotedText? : Nat → List Char → Option (List Char × List Char)
  | 0, _ | _, [] => none
  | n + 1, c :: r =>
    if c = quotationMark then some ([], r)
    else if c = '\\' then do
      let (d, taken) ← escape? r
      let (t, rest) ← quotedText? n (r.drop taken)
      return (d :: t, rest)
    else do
      let (t, rest) ← quotedText? n r
      return (c :: t, rest)

/-- Reads an integer: an optional minus sign and digits. -/
def int? (s : List Char) : Option Int :=
  let (negative, ds) := match s with
    | '-' :: r => (true, r)
    | r => (false, r)
  if ds.isEmpty || !ds.all Decimal.Numeral.isPlainDigit then none
  else
    let n : Int := Decimal.Numeral.valueOf ds
    some (if negative then -n else n)

/-- Reads a word or a number. -/
def word? (s : List Char) : Option Document :=
  match String.ofList s with
  | "null" => some .null
  | "true" => some (.bool true)
  | "false" => some (.bool false)
  | _ =>
    match int? s with
    | some n => some (.int n)
    | none => (Decimal.Numeral.ofChars? s).map fun n => .real n.toFloat

/-- Whether a character ends a word or a number. -/
def endsWord (c : Char) : Bool := c = ',' || c = ']' || c = '\x7d' || isSpace c

mutual

/-- Reads a value at the start of a text; the number bounds the steps. -/
def value? : Nat → List Char → Option (Document × List Char)
  | 0, _ => none
  | n + 1, s =>
    match skipSpace s with
    | [] => none
    | c :: r =>
      if c = '[' then (items? n r).map fun (xs, rest) => (.list xs, rest)
      else if c = '\x7b' then (entries? n r).map fun (fs, rest) => (objectOf fs, rest)
      else if c = quotationMark then
        (quotedText? (r.length + 1) r).map fun (t, rest) => (.text (String.ofList t), rest)
      else
        let w := (c :: r).takeWhile fun c => !endsWord c
        (word? w).map fun d => (d, (c :: r).drop w.length)

/-- Reads the items of a list up to its bracket. -/
def items? : Nat → List Char → Option (List Document × List Char)
  | 0, _ => none
  | n + 1, s =>
    match skipSpace s with
    | ']' :: r => some ([], r)
    | s =>
      match value? n s with
      | none => none
      | some (d, r) =>
        match skipSpace r with
        | ',' :: r => (items? n r).map fun (ds, rest) => (d :: ds, rest)
        | ']' :: r => some ([d], r)
        | _ => none

/-- Reads the fields of an object up to its brace. -/
def entries? : Nat → List Char → Option (List (String × Document) × List Char)
  | 0, _ => none
  | n + 1, s =>
    match skipSpace s with
    | '\x7d' :: r => some ([], r)
    | c :: r =>
      if c ≠ quotationMark then none
      else match quotedText? (r.length + 1) r with
      | none => none
      | some (k, r) =>
        match skipSpace r with
        | ':' :: r =>
          match value? n r with
          | none => none
          | some (d, r) =>
            match skipSpace r with
            | ',' :: r => (entries? n r).map fun (fs, rest) => ((String.ofList k, d) :: fs, rest)
            | '\x7d' :: r => some ([(String.ofList k, d)], r)
            | _ => none
        | _ => none
    | [] => none

end

/-- Reads a text that holds one value and nothing else. -/
def read? (s : String) : Option Document :=
  match value? (s.length + 1) s.toList with
  | some (d, r) => if skipSpace r = [] then some d else none
  | none => none

/-! ## Writing -/

/-- Escapes a character that is not written as it is. -/
def escapedChar (c : Char) : List Char :=
  if c = quotationMark ∨ c = '\\' then ['\\', c]
  else if c = '\n' then ['\\', 'n']
  else if c = '\r' then ['\\', 'r']
  else if c = '\t' then ['\\', 't']
  else if c.toNat = 8 then ['\\', 'b']
  else if c.toNat = 12 then ['\\', 'f']
  else if 0x20 ≤ c.toNat ∧ c.toNat < 0x7F then [c]
  else if c.toNat < 0x10000 then '\\' :: 'u' :: hexDigits 4 c.toNat
  else
    let n := c.toNat - 0x10000
    '\\' :: 'u' :: hexDigits 4 (0xD800 + n / 0x400) ++
      '\\' :: 'u' :: hexDigits 4 (0xDC00 + n % 0x400)

/-- A text between quotation marks. -/
def quotedText (s : String) : String :=
  String.ofList (quotationMark :: s.toList.flatMap escapedChar ++ [quotationMark])

/-- A number; what is not a finite number is written as null. -/
def realText (x : Float) : String :=
  match Decimal.Double.ofFloat x with
  | .finite .. => Decimal.shortest x
  | _ => "null"

/-- A new line with an indentation of two spaces a level. -/
def newLine (level : Nat) : String := "\n" ++ String.ofList (List.replicate (2 * level) ' ')

mutual

/-- Writes a document whose lines are indented to a level. -/
def writeAt (level : Nat) : Document → String
  | .null => "null"
  | .bool b => if b then "true" else "false"
  | .int n => if n < 0 then "-" ++ n.natAbs.repr else n.natAbs.repr
  | .real x => realText x
  | .moment m => quotedText m.text
  | .text s => quotedText s
  | .list [] => "[]"
  | .list (d :: ds) =>
    "[" ++ newLine (level + 1) ++ joinText ("," ++ newLine (level + 1))
      (writeAt (level + 1) d :: writeItems (level + 1) ds) ++ newLine level ++ "]"
  | .object [] | .mixed [] => "\x7b\x7d"
  | .object (f :: fs) | .mixed (f :: fs) =>
    "\x7b" ++ newLine (level + 1) ++ joinText ("," ++ newLine (level + 1))
      (writeField (level + 1) f :: writeFields (level + 1) fs) ++ newLine level ++ "\x7d"

def writeItems (level : Nat) : List Document → List String
  | [] => []
  | d :: ds => writeAt level d :: writeItems level ds

/-- Writes a field of an object. -/
def writeField (level : Nat) : String × Document → String
  | (k, d) => quotedText k ++ ": " ++ writeAt level d

/-- Writes the fields of an object. -/
def writeFields (level : Nat) : List (String × Document) → List String
  | [] => []
  | f :: fs => writeField level f :: writeFields level fs

end

/-- Writes a document over several lines. -/
def write (d : Document) : String := writeAt 0 d

end PrimaryEnergy.Document.Json
