/-
  Documents written as YAML texts.

  The fields of an object stand in the order of their names, each on a line of its own;
  what is nested is indented by two spaces.  A text is written without quotes if it reads
  back as that text, else between apostrophes, and if it holds characters that have to be
  escaped between quotation marks.  Long texts are broken into lines at their spaces,
  between quotation marks anywhere behind a backslash.

  `Yaml.write` writes a document.
-/
import PrimaryEnergy.Decimal.Shortest
import PrimaryEnergy.Document.Yaml.Glyph
import PrimaryEnergy.Document.Yaml.Word
import PrimaryEnergy.Text.Quoted

namespace PrimaryEnergy.Document.Yaml

open Text

/-! ## Forms of texts -/

/-- Whether a character is a space or a line feed. -/
def isPlainGap (c : Char) : Bool := c = ' ' || c = '\n'

/-- Whether a character can only be written with a backslash. -/
def needsEscape (c : Char) : Bool := c ≠ '\n' && !(0x20 ≤ c.toNat && c.toNat < 0x7F)

/-- Whether the first characters of a text keep it from standing without quotes. -/
def startsSpecial : List Char → Bool
  | [] => true
  | '-' :: '-' :: '-' :: _ | '.' :: '.' :: '.' :: _ => true
  | c :: r =>
    "#,[]\x7b\x7d&*!|>%@\x60".toList.contains c || c = quotationMark || c = apostrophe ||
      ((c = '-' || c = '?' || c = ':') && r.head?.all isPlainGap)

/-- Whether a colon that ends a name, or a remark, stands inside a text. -/
def breaksOff : List Char → Bool
  | [] => false
  | [c] => c = ':'
  | c :: d :: r => (c = ':' && isPlainGap d) || (isPlainGap c && d = '#') || breaksOff (d :: r)

/-- Whether a space stands beside a line break. -/
def hasSpaceAtBreak : List Char → Bool
  | [] | [_] => false
  | c :: d :: r => (isPlainGap c && isPlainGap d && c ≠ d) || hasSpaceAtBreak (d :: r)

/-- How a text is written. -/
inductive Style where
  /-- As it stands. -/
  | plain
  /-- Between apostrophes. -/
  | apostrophes
  /-- Between quotation marks. -/
  | quotationMarks
deriving DecidableEq, Repr

/-- How a text is written; a name must stand in one line. -/
def styleOf (isName : Bool) (s : List Char) : Style :=
  let isBroken := s.contains '\n'
  if s.any needsEscape || hasSpaceAtBreak s || (isName && isBroken) then .quotationMarks
  else if isText s && !isBroken && s.head? != some ' ' && s.getLast? != some ' ' &&
      !startsSpecial s && !breaksOff s then .plain
  else .apostrophes

/-! ## Lines -/

/-- The column behind which texts are broken into lines. -/
def width : Nat := 80

/-- Where a text stands. -/
structure Place where
  /-- Whether it may be broken into lines. -/
  mayBreak : Bool
  /-- The column of its further lines. -/
  indent : Nat

/-- Spaces up to a column. -/
def spaces (n : Nat) : List Char := List.replicate n ' '

/-- Whether a line is broken behind a column. -/
def Place.isFull (p : Place) (column : Nat) : Bool := p.mayBreak && width < column

/-- A further line. -/
def Place.newLine (p : Place) : List Char := '\n' :: spaces p.indent

/-- A line break of the text itself: the first of several is written twice, the last one
    starts a further line. -/
def Place.ownBreak (p : Place) (before : Option Char) (r : List Char) : List Char :=
  (if before = some '\n' then [] else ['\n']) ++
    if r.head? = some '\n' then ['\n'] else p.newLine

/-- A text without escapes from a column on, `before` being the character in front.  Lines are
    broken at single spaces inside; apostrophes are doubled between apostrophes. -/
def folds (p : Place) (isQuoted : Bool) : Nat → Option Char → List Char → List Char
  | _, _, [] => []
  | column, before, c :: r =>
    if c = '\n' then p.ownBreak before r ++ folds p isQuoted p.indent (some c) r
    else if c = ' ' && p.isFull column && before.any (· ≠ ' ') && r.head?.any (· ≠ ' ') then
      p.newLine ++ folds p isQuoted p.indent (some c) r
    else if c = apostrophe && isQuoted then
      c :: c :: folds p isQuoted (column + 2) (some c) r
    else c :: folds p isQuoted (column + 1) (some c) r

/-- The letters and marks after a backslash that stand for characters. -/
def escapeMarks : List (Nat × Char) :=
  [(0, '0'), (7, 'a'), (8, 'b'), (9, 't'), (10, 'n'), (11, 'v'), (12, 'f'), (13, 'r'), (27, 'e'),
   (34, quotationMark), (92, '\\'), (0x85, 'N'), (0xA0, '_'), (0x2028, 'L'), (0x2029, 'P')]

/-- A character by its code. -/
def codeText (c : Char) : List Char :=
  let code (letter : Char) (digits : Nat) := letter :: (hexDigits digits c.toNat).map Char.toUpper
  if c.toNat < 0x100 then code 'x' 2
  else if c.toNat < 0x10000 then code 'u' 4
  else code 'U' 8

/-- What a character is written as between quotation marks, if not as it stands. -/
def escaped? (c : Char) : Option (List Char) :=
  match escapeMarks.lookup c.toNat with
  | some m => some ['\\', m]
  | none => if needsEscape c then some ('\\' :: codeText c) else none

/-- The end of a line in the middle of a text, and the start of the next one: a space there is
    escaped. -/
def Place.softBreak (p : Place) (next : Option Char) : List Char :=
  '\\' :: p.newLine ++ if next = some ' ' then ['\\'] else []

/-- The column after the start of a further line. -/
def Place.softColumn (p : Place) (next : Option Char) : Nat :=
  if next = some ' ' then p.indent + 1 else p.indent

/-- A text with escapes from a column on.  A line is broken before a space or a character
    after an escape, and after an escape, but not around the first and the last character;
    `afterEscape` is none at the start of the text. -/
def escapeFolds (p : Place) : Nat → Option Bool → List Char → List Char
  | _, _, [] => []
  | column, afterEscape, c :: r =>
    let isInside := afterEscape.isSome && !r.isEmpty
    match escaped? c with
    | some e =>
      let column := column + e.length
      if isInside && p.isFull (column - 1) then
        e ++ p.softBreak r.head? ++ escapeFolds p (p.softColumn r.head?) (some true) r
      else e ++ escapeFolds p column (some true) r
    | none =>
      if isInside && (c = ' ' || afterEscape = some true) && p.isFull column then
        p.softBreak (some c) ++ c :: escapeFolds p (p.softColumn (some c) + 1) (some false) r
      else c :: escapeFolds p (column + 1) (some false) r

/-- A text from a column on. -/
def textAt (p : Place) (column : Nat) (s : List Char) : List Char :=
  match styleOf (!p.mayBreak) s with
  | .plain => folds p false column none s
  | .apostrophes => apostrophe :: folds p true (column + 1) none s ++ [apostrophe]
  | .quotationMarks => quotationMark :: escapeFolds p (column + 1) none s ++ [quotationMark]

/-! ## Documents -/

/-- A number, always with a point. -/
def realText (x : Float) : String :=
  match Decimal.shortest x with
  | "nan" => ".nan"
  | "inf" => ".inf"
  | "-inf" => "-.inf"
  | t =>
    if t.toList.contains '.' then t
    else
      let (m, e) := (t.toList.takeWhile (· ≠ 'e'), t.toList.dropWhile (· ≠ 'e'))
      String.ofList (m ++ ['.', '0'] ++ e)

/-- A number without point. -/
def intText (n : Int) : String := if n < 0 then "-" ++ n.natAbs.repr else n.natAbs.repr

/-- The name of a field that starts at a column. -/
def nameText (indent : Nat) (k : String) : List Char := textAt ⟨false, indent⟩ indent k.toList

mutual

/-- What stands after a name or the mark of an item that ends at a column and belongs to
    what is indented so far: a value on the same line, or indented lines. -/
def valueText (indent column : Nat) : Document → List Char
  | .null => " null\n".toList
  | .bool b => if b then " true\n".toList else " false\n".toList
  | .int n => ' ' :: (intText n).toList ++ ['\n']
  | .real x => ' ' :: (realText x).toList ++ ['\n']
  | .moment m => ' ' :: m.text.toList ++ ['\n']
  | .text s => ' ' :: textAt ⟨true, indent + 2⟩ (column + 1) s.toList ++ ['\n']
  | .list ds => if ds.isEmpty then " []\n".toList else '\n' :: itemsText (indent + 2) ds
  | .object fs | .mixed fs =>
    if fs.isEmpty then " \x7b\x7d\n".toList else '\n' :: fieldsText (indent + 2) fs

def itemsText (indent : Nat) : List Document → List Char
  | [] => []
  | d :: ds => spaces indent ++ '-' :: valueText indent (indent + 1) d ++ itemsText indent ds

/-- A field of an object. -/
def fieldText (indent : Nat) : String × Document → List Char
  | (k, d) =>
    let name := nameText indent k
    spaces indent ++ name ++ ':' :: valueText indent (indent + name.length + 1) d

/-- The fields of an object. -/
def fieldsText (indent : Nat) : List (String × Document) → List Char
  | [] => []
  | f :: fs => fieldText indent f ++ fieldsText indent fs

end

/-- The fields in the order of their names. -/
def byName (fields : List (String × Document)) : List (String × Document) :=
  fields.mergeSort fun f g => f.1 ≤ g.1

mutual

/-- The document with the fields of all objects in the order of their names. -/
def sorted : Document → Document
  | .list ds => .list (sortedItems ds)
  | .object fs => .object (byName (sortedFields fs))
  | .mixed fs => .mixed (byName (sortedFields fs))
  | d => d

/-- `sorted` for the items of a list. -/
def sortedItems : List Document → List Document
  | [] => []
  | d :: ds => sorted d :: sortedItems ds

/-- `sorted` for the value of a field. -/
def sortedField : String × Document → String × Document
  | (k, d) => (k, sorted d)

/-- `sorted` for the values of fields. -/
def sortedFields : List (String × Document) → List (String × Document)
  | [] => []
  | f :: fs => sortedField f :: sortedFields fs

end

def write (d : Document) : String :=
  String.ofList (match sorted d with
    | .object (f :: fs) | .mixed (f :: fs) => fieldsText 0 (f :: fs)
    | .list (d :: ds) => itemsText 0 (d :: ds)
    | .text s => textAt ⟨true, 2⟩ 0 s.toList ++ ['\n']
    | d => (valueText 0 0 d).drop 1)

end PrimaryEnergy.Document.Yaml
