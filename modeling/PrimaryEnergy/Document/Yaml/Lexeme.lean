/-
  YAML texts as sequences of lexemes.

  Outside of brackets the indentation tells where collections start and end: a lexeme is
  put in for each.  The name of a field is recognised late, by the colon behind it; `Scan`
  keeps where names may have started (`Candidate`), one for each open bracket and one
  outside of them, and puts the lexemes of a name in there.  A name is no longer than one
  line and 1024 characters.

  `lexemes?` cuts a text into its lexemes.
-/
import PrimaryEnergy.Document.Yaml.Scalar

namespace PrimaryEnergy.Document.Yaml

open Text

/-! ## Lexemes -/

/-- A line about the text itself. -/
inductive Directive where
  | version (major : Nat)
  /-- What a handle in front of a tag stands for. -/
  | handle (name stands : String)
  | other
deriving DecidableEq, Repr

/-- A part of a text. -/
inductive Lexeme where
  | directive (d : Directive)
  | documentStart
  | documentEnd
  /-- The start of a list of indented items. -/
  | listStart
  /-- The start of indented fields. -/
  | fieldsStart
  /-- The end of what is indented. -/
  | blockEnd
  | openList
  | closeList
  | openFields
  | closeFields
  | comma
  /-- The mark of an item. -/
  | item
  /-- The start of a name. -/
  | name
  /-- The start of the value of a name. -/
  | value
  /-- What was given a label before. -/
  | labelled (label : String)
  /-- A label for what follows. -/
  | label (label : String)
  /-- A tag for what follows: a handle, if there is one, and the rest. -/
  | tag (handle : Option String) (suffix : String)
  /-- A scalar; its text has a meaning if it is plain, that is without quotes. -/
  | scalar (isPlain : Bool) (text : List Char)
deriving DecidableEq, Repr

/-! ## Parts of lexemes -/

/-- Whether a character may stand in labels, handles and names of directives. -/
def isNameChar (c : Char) : Bool :=
  ('0' ≤ c && c ≤ '9') || ('a' ≤ c && c ≤ 'z') || ('A' ≤ c && c ≤ 'Z') || c = '-' || c = '_'

/-- The characters of a class in front, at least one, and what follows. -/
def span? (p : Char → Bool) (gs : List Glyph) : Option (String × List Glyph) :=
  let w := gs.takeWhile fun g => p g.char
  if w.isEmpty then none else some (String.ofList (chars w), gs.drop w.length)

/-- Reads a label. -/
def label? (gs : List Glyph) : Option (String × List Glyph) := do
  let (s, r) ← span? isNameChar gs
  guard (atGap r || r.head?.any fun g => "?:,]\x7d%@\x60".toList.contains g.char)
  return (s, r)

/-- Whether a character may stand in a tag; codes after a percent sign are not read. -/
def isTagChar (c : Char) : Bool :=
  isNameChar c || c = apostrophe || ";/?:@&=+$,.!~*()[]".toList.contains c

/-- Reads the text of a tag. -/
def tagText? (gs : List Glyph) : Option (String × List Glyph) := span? isTagChar gs

/-- Reads a handle: an exclamation mark, or a name between two of them. -/
def handle? (gs : List Glyph) : Option (String × List Glyph) :=
  if !atChar '!' gs then none
  else
    let r := gs.drop 1
    let w := r.takeWhile fun g => isNameChar g.char
    let r' := r.drop w.length
    if atChar '!' r' then some (String.ofList ('!' :: chars w ++ ['!']), r'.drop 1)
    else if w.isEmpty && atChar ' ' r then some ("!", r)
    else none

/-- Reads a tag after its exclamation mark. -/
def tag? (gs : List Glyph) : Option (Lexeme × List Glyph) := do
  let r := gs.drop 1
  if atChar '<' r then
    let (s, r) ← tagText? (r.drop 1)
    guard (atChar '>' r && atSpace (r.drop 1))
    return (.tag none s, r.drop 1)
  else if atGap r then
    guard (atSpace r)
    return (.tag none "!", r)
  else
    let ahead := r.takeWhile fun g => g.char ≠ ' ' && !isBreak g.char
    let (h, r) ← if ahead.any fun g => g.char = '!' then handle? gs else some ("!", r)
    let (s, r) ← tagText? r
    guard (atSpace r)
    return (.tag (some h) s, r)

/-- Reads the digits of a version, and what follows. -/
def versionNumber? (gs : List Glyph) : Option (Nat × List Glyph) := do
  let (s, r) ← span? (fun c => '0' ≤ c && c ≤ '9') gs
  return ((s.toNat?).getD 0, r)

def skipSpaces (gs : List Glyph) : List Glyph := gs.dropWhile fun g => g.char = ' '

/-- Reads a directive after its percent sign. -/
def directive? (gs : List Glyph) : Option (Directive × List Glyph) := do
  let (s, r) ← span? isNameChar gs
  guard (atSpace r)
  match s with
  | "YAML" =>
    let (major, r) ← versionNumber? (skipSpaces r)
    guard (atChar '.' r)
    let (_, r) ← versionNumber? (r.drop 1)
    guard (atSpace r)
    return (.version major, ← lineEnd? r)
  | "TAG" =>
    let (h, r) ← handle? (skipSpaces r)
    guard (atChar ' ' r)
    let (p, r) ← tagText? (skipSpaces r)
    guard (atSpace r)
    return (.handle h p, ← lineEnd? r)
  | _ => return (.other, (r.dropWhile fun g => !isBreak g.char).drop 1)

/-! ## Scanning -/

/-- Where a name may have started. -/
structure Candidate where
  /-- The number of lexemes before it. -/
  position : Nat
  /-- Whether there has to be a name. -/
  isRequired : Bool
  /-- Its first character. -/
  start : Glyph

/-- How far a text is scanned. -/
structure Scan where
  /-- What follows. -/
  rest : List Glyph
  /-- The lexemes, the last one first. -/
  lexemes : List Lexeme := []
  /-- The columns of the indented collections, the innermost first. -/
  indents : List Nat := []
  /-- Whether a name may start here. -/
  mayName : Bool := true
  /-- Where a name may have started inside of the innermost bracket. -/
  candidate : Option Candidate := none
  /-- The same for the brackets around, and last for what is outside of them. -/
  outer : List (Option Candidate) := []

namespace Scan

/-- Whether a bracket is open. -/
def inFlow (s : Scan) : Bool := !s.outer.isEmpty

/-- Adds a lexeme. -/
def push (s : Scan) (l : Lexeme) : Scan := { s with lexemes := l :: s.lexemes }

/-- Puts lexemes in at a position. -/
def insert (s : Scan) (position : Nat) (ls : List Lexeme) : Scan :=
  let k := s.lexemes.length - position
  { s with lexemes := s.lexemes.take k ++ ls.reverse ++ s.lexemes.drop k }

/-- Whether the innermost indented collection lies to the left of a column. -/
def isDeeper (s : Scan) (column : Nat) : Bool := s.indents.head?.all fun n => n < column

/-- Ends the collections that lie to the right of a column, or all of them. -/
def unwind (s : Scan) (column : Option Nat) : Scan :=
  if s.inFlow then s
  else
    let ended := s.indents.takeWhile fun n => column.all fun c => c < n
    { s with
      lexemes := ended.map (fun _ => .blockEnd) ++ s.lexemes
      indents := s.indents.drop ended.length }

/-- Gives up the candidate; that is a fault if there has to be a name. -/
def dropCandidate? (s : Scan) : Option Scan :=
  if s.candidate.any (·.isRequired) then none else some { s with candidate := none }

/-- Whether a name that starts at a candidate can reach a character. -/
def reaches (g : Glyph) (c : Candidate) : Bool :=
  c.start.line = g.line && g.index - c.start.index ≤ 1024

/-- Gives up the candidates that are too far away. -/
def dropStale? (s : Scan) (g : Glyph) : Option Scan :=
  let lost (c : Option Candidate) : Bool := c.any fun c => c.isRequired && !reaches g c
  if lost s.candidate || s.outer.any lost then none
  else
    let kept (c : Option Candidate) : Option Candidate := c.filter (reaches g)
    some { s with candidate := kept s.candidate, outer := s.outer.map kept }

/-- Makes a character a candidate, if a name may start there. -/
def markCandidate? (s : Scan) (g : Glyph) : Option Scan :=
  if s.mayName then do
    let isRequired := !s.inFlow && s.indents.head? = some g.column
    let s ← s.dropCandidate?
    return { s with candidate := some ⟨s.lexemes.length, isRequired, g⟩ }
  else some s

/-- Starts an indented collection at a column, if it is deeper than those around. -/
def indentAt (s : Scan) (column : Nat) (l : Lexeme) : Scan :=
  if s.isDeeper column then { s.push l with indents := column :: s.indents } else s

/-! ### Single lexemes -/

/-- A line that separates documents: everything that is indented ends. -/
def separator? (s : Scan) (l : Lexeme) (rest : List Glyph) : Option Scan := do
  let s ← (s.unwind none).dropCandidate?
  return { s.push l with rest := rest, mayName := false }

/-- An opening bracket or brace. -/
def opening? (s : Scan) (g : Glyph) (rest : List Glyph) (l : Lexeme) : Option Scan := do
  let s ← s.markCandidate? g
  return { s.push l with
    rest := rest, mayName := true, candidate := none, outer := s.candidate :: s.outer }

/-- A closing bracket or brace. -/
def closing? (s : Scan) (rest : List Glyph) (l : Lexeme) : Option Scan := do
  let s ← s.dropCandidate?
  match s.outer with
  | [] => none
  | c :: outer =>
    return { s.push l with rest := rest, mayName := false, candidate := c, outer := outer }

/-- A comma between brackets. -/
def comma? (s : Scan) (rest : List Glyph) : Option Scan := do
  let s ← s.dropCandidate?
  return { s.push .comma with rest := rest, mayName := true }

/-- The mark of an item or of a name, which starts an indented collection. -/
def mark? (s : Scan) (g : Glyph) (rest : List Glyph) (start l : Lexeme) (mayName : Bool) :
    Option Scan := do
  guard (s.inFlow || s.mayName)
  let s := if s.inFlow then s else s.indentAt g.column start
  let s ← s.dropCandidate?
  return { s.push l with rest := rest, mayName := mayName }

/-- A colon: the name before it starts at the candidate, if there is one. -/
def colon? (s : Scan) (g : Glyph) (rest : List Glyph) : Option Scan := do
  match s.candidate with
  | some c =>
    let starts := !s.inFlow && s.isDeeper c.start.column
    let s := s.insert c.position (if starts then [.fieldsStart, .name] else [.name])
    return { s.push .value with
      rest := rest, mayName := false, candidate := none
      indents := if starts then c.start.column :: s.indents else s.indents }
  | none =>
    guard (s.inFlow || s.mayName)
    let s := if s.inFlow then s else s.indentAt g.column .fieldsStart
    return { s.push .value with rest := rest, mayName := !s.inFlow }

/-- A lexeme with which a name may start. -/
def nameable? (s : Scan) (g : Glyph) (read : Option (Lexeme × List Glyph)) : Option Scan := do
  let s ← s.markCandidate? g
  let (l, rest) ← read
  return { s.push l with rest := rest, mayName := false }

/-- A block of lines. -/
def blockScalar? (s : Scan) (isFolded : Bool) (gs : List Glyph) : Option Scan := do
  let s ← s.dropCandidate?
  let (t, rest) ← block? isFolded ((s.indents.head?.map (· + 1)).getD 1) gs
  return { s.push (.scalar false t) with rest := rest, mayName := true }

/-- A scalar without quotes. -/
def plainScalar? (s : Scan) (g : Glyph) (gs : List Glyph) : Option Scan := do
  let s ← s.markCandidate? g
  let p := plain s.inFlow ((s.indents.head?.map (· + 1)).getD 0) gs.length gs
  return { s.push (.scalar true p.text) with rest := p.rest, mayName := p.newLine }

/-- Whether a scalar without quotes may start here. -/
def startsPlain (inFlow : Bool) (c : Char) (rest : List Glyph) : Bool :=
  !(isGap c || c = apostrophe || c = quotationMark ||
      "-?:,[]\x7b\x7d#&*!|>%@\x60".toList.contains c) ||
    (!atGap rest && (c = '-' || (!inFlow && (c = '?' || c = ':'))))

/-- Reads the lexeme at a character, `rest` being what follows the character. -/
def lexeme? (s : Scan) (g : Glyph) (rest : List Glyph) : Option Scan :=
  let here := g :: rest
  let lineStart : Bool := g.column = 0
  match g.char with
  | '[' => s.opening? g rest .openList
  | '\x7b' => s.opening? g rest .openFields
  | ']' => s.closing? rest .closeList
  | '\x7d' => s.closing? rest .closeFields
  | ',' => s.comma? rest
  | '*' => s.nameable? g ((label? rest).map fun (n, r) => (.labelled n, r))
  | '&' => s.nameable? g ((label? rest).map fun (n, r) => (.label n, r))
  | '!' => s.nameable? g (tag? here)
  | c =>
    if c = '%' && lineStart then
      (directive? rest).bind fun (d, r) => s.separator? (.directive d) r
    else if c = '-' && lineStart && atSeparator here then s.separator? .documentStart (here.drop 3)
    else if c = '.' && lineStart && atSeparator here then s.separator? .documentEnd (here.drop 3)
    else if c = '-' && atGap rest then s.mark? g rest .listStart .item true
    else if c = '?' && (s.inFlow || atGap rest) then s.mark? g rest .fieldsStart .name (!s.inFlow)
    else if c = ':' && (s.inFlow || atGap rest) then s.colon? g rest
    else if (c = '|' || c = '>') && !s.inFlow then s.blockScalar? (c = '>') rest
    else if c = apostrophe || c = quotationMark then
      s.nameable? g ((quoted? c (rest.length + 1) rest).map fun (t, r) => (.scalar false t, r))
    else if startsPlain s.inFlow c rest then s.plainScalar? g here
    else none

/-! ### Whole texts -/

/-- Drops spaces, remarks and line breaks; tells whether there were line breaks. -/
def skip (inRemark : Bool) : List Glyph → List Glyph × Bool
  | [] => ([], false)
  | g :: r =>
    if isBreak g.char then ((skip false r).1, true)
    else if inRemark || g.char = '#' then skip true r
    else if g.char = ' ' then skip false r
    else (g :: r, false)

/-- Scans the text to its end; the number bounds the lexemes. -/
def run? : Nat → Scan → Option (List Lexeme)
  | 0, _ => none
  | n + 1, s =>
    let (rest, broken) := skip false s.rest
    let s := { s with rest := rest, mayName := s.mayName || (broken && !s.inFlow) }
    match rest with
    | [] => (s.unwind none).dropCandidate?.map fun s => s.lexemes.reverse
    | g :: r =>
      match s.dropStale? g with
      | none => none
      | some s =>
        match (s.unwind (some g.column)).lexeme? g r with
        | none => none
        | some s => run? n s

end Scan

/-- The lexemes of a text. -/
def lexemes? (gs : List Glyph) : Option (List Lexeme) := Scan.run? (gs.length + 1) { rest := gs }

end PrimaryEnergy.Document.Yaml
