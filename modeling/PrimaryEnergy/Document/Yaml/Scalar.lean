/-
  Scalars in YAML texts.

  A scalar is written without quotes (`plain`), between quotes (`quoted?`) or as a block of
  lines (`block?`).  Lines are folded: a single line break stands for a space, of several
  the first is dropped; a line or paragraph separator stands for itself.
-/
import PrimaryEnergy.Document.Yaml.Glyph
import PrimaryEnergy.Text.Hex
import PrimaryEnergy.Text.Quoted

namespace PrimaryEnergy.Document.Yaml

open Text

/-- What a first line break and those after it stand for. -/
def folded (first : Char) (others : List Char) : List Char :=
  (if first ≠ '\n' then [first] else if others.isEmpty then [' '] else []) ++ others

/-! ## Without quotes -/

/-- A scalar without quotes and what follows it. -/
structure PlainScalar where
  text : List Char := []
  /-- What follows. -/
  rest : List Glyph
  /-- Whether what follows is on a further line. -/
  newLine : Bool := false

/-- Whether a colon ends a word: a gap follows, or between brackets one of their marks. -/
def endsName (inFlow : Bool) (gs : List Glyph) : Bool :=
  atGap gs || (inFlow && gs.head?.any fun g => ",[]\x7b\x7d".toList.contains g.char)

/-- The characters up to the next gap or mark, and what follows. -/
def word (inFlow : Bool) : List Glyph → List Char × List Glyph
  | [] => ([], [])
  | g :: r =>
    let c := g.char
    if isGap c || (c = ':' && endsName inFlow r) ||
        (inFlow && ",?[]\x7b\x7d".toList.contains c) then ([], g :: r)
    else
      let (w, rest) := word inFlow r
      (c :: w, rest)

/-- The line breaks among spaces, what follows, and whether it separates documents. -/
def gapBreaks : List Glyph → List Char × List Glyph × Bool
  | [] => ([], [], false)
  | g :: r =>
    if g.char = ' ' then gapBreaks r
    else if isBreak g.char then
      if atSeparator r then ([g.char], r, true)
      else
        let (bs, rest, separated) := gapBreaks r
        (g.char :: bs, rest, separated)
    else ([], g :: r, false)

/-- What stands between a word and the next one; nothing if the scalar ends here. -/
def plainGap (gs : List Glyph) : PlainScalar :=
  let spaces := gs.takeWhile fun g => g.char = ' '
  match gs.dropWhile fun g => g.char = ' ' with
  | [] => ⟨chars spaces, [], false⟩
  | g :: r =>
    if !isBreak g.char then ⟨chars spaces, g :: r, false⟩
    else if atSeparator r then ⟨[], r, true⟩
    else
      let (bs, rest, separated) := gapBreaks r
      ⟨if separated then [] else folded g.char bs, rest, true⟩

/-- Whether a scalar goes on after a gap: not with a remark, and outside of brackets only in
    lines that are indented enough. -/
def goesOn (inFlow : Bool) (indent : Nat) (gs : List Glyph) : Bool :=
  !atChar '#' gs && (inFlow || !gs.head?.any fun g => g.column < indent)

/-- Reads a scalar without quotes, whose further lines have at least an indentation; the
    number bounds the words. -/
def plain (inFlow : Bool) (indent : Nat) : Nat → List Glyph → PlainScalar
  | 0, gs => { rest := gs }
  | n + 1, gs =>
    match word inFlow gs with
    | ([], rest) => { rest := rest }
    | (w, rest) =>
      let gap := plainGap rest
      if gap.text.isEmpty || !goesOn inFlow indent gap.rest then
        { text := w, rest := gap.rest, newLine := gap.newLine }
      else
        let more := plain inFlow indent n gap.rest
        if more.text.isEmpty then { text := w, rest := more.rest, newLine := gap.newLine }
        else { more with text := w ++ gap.text ++ more.text }

/-! ## Between quotes -/

/-- The characters that a letter or mark after a backslash stands for. -/
def escapes : List (Char × Nat) :=
  [('0', 0), ('a', 7), ('b', 8), ('t', 9), ('\t', 9), ('n', 10), ('v', 11), ('f', 12), ('r', 13),
   ('e', 27), (' ', 32), (quotationMark, 34), ('/', 47), ('\\', 92), ('N', 0x85), ('_', 0xA0),
   ('L', 0x2028), ('P', 0x2029)]

/-- Reads what follows a backslash: the character, and how many characters it takes. -/
def escape? (gs : List Glyph) : Option (Char × Nat) :=
  match gs with
  | [] => none
  | g :: _ =>
    match escapes.lookup g.char with
    | some n => some (Char.ofNat n, 1)
    | none => codedChar? (chars (gs.take 12))

/-- The line breaks among spaces and tabs, and what follows; a line that separates documents
    may not follow.  `start` tells whether a line starts here. -/
def quotedBreaks? (start : Bool) : List Glyph → Option (List Char × List Glyph)
  | [] => some ([], [])
  | g :: r =>
    if start && atSeparator (g :: r) then none
    else if isBreak g.char then
      (quotedBreaks? true r).map fun (bs, rest) => (g.char :: bs, rest)
    else if isGap g.char then quotedBreaks? false r
    else some ([], g :: r)

/-- What a gap between quotes stands for, and what follows it. -/
def quotedGap? (gs : List Glyph) : Option (List Char × List Glyph) :=
  let isSpace (g : Glyph) : Bool := g.char = ' ' || g.char = '\t'
  match gs.dropWhile isSpace with
  | [] => none
  | g :: r =>
    if isBreak g.char then
      (quotedBreaks? true r).map fun (bs, rest) => (folded g.char bs, rest)
    else some (chars (gs.takeWhile isSpace), g :: r)

/-- Reads a text up to its closing mark, and what follows it; the number bounds the steps.
    Between quotation marks a backslash escapes what follows it, also a line break; between
    apostrophes a doubled apostrophe stands for one. -/
def quoted? (mark : Char) : Nat → List Glyph → Option (List Char × List Glyph)
  | 0, _ | _, [] => none
  | n + 1, g :: r =>
    let c := g.char
    let go (t : List Char) (rest : List Glyph) : Option (List Char × List Glyph) :=
      (quoted? mark n rest).map fun (u, rest) => (t ++ u, rest)
    if c = mark then
      if mark = apostrophe && atChar apostrophe r then go [c] (r.drop 1) else some ([], r)
    else if isGap c then (quotedGap? (g :: r)).bind fun (t, rest) => go t rest
    else if c = '\\' && mark = quotationMark then
      if !r.isEmpty && atBreak r then
        (quotedBreaks? true (r.drop 1)).bind fun (t, rest) => go t rest
      else (escape? r).bind fun (d, taken) => go [d] (r.drop taken)
    else go [c] r

/-! ## Blocks of lines -/

/-- What becomes of the line breaks at the end of a block. -/
inductive Chomping where
  /-- All are dropped. -/
  | strip
  /-- One is kept. -/
  | clip
  /-- All are kept. -/
  | keep
deriving DecidableEq, Repr

/-- Reads the mark for the line breaks at the end of a block. -/
def chomping? (gs : List Glyph) : Option Chomping :=
  if atChar '+' gs then some .keep else if atChar '-' gs then some .strip else none

/-- Reads the digit for the indentation of a block. -/
def increment? : List Glyph → Option Nat
  | [] => none
  | g :: _ => if '0' ≤ g.char ∧ g.char ≤ '9' then some (g.char.toNat - 48) else none

/-- Reads the marks of a block, in either order. -/
def blockMarks (gs : List Glyph) : Chomping × Option Nat × List Glyph :=
  match chomping? gs, increment? gs with
  | some c, _ =>
    let r := gs.drop 1
    match increment? r with
    | some n => (c, some n, r.drop 1)
    | none => (c, none, r)
  | none, some n =>
    let r := gs.drop 1
    match chomping? r with
    | some c => (c, some n, r.drop 1)
    | none => (.clip, some n, r)
  | none, none => (.clip, none, gs)

/-- Drops spaces and a remark up to the end of the line, where nothing else may stand. -/
def lineEnd? (gs : List Glyph) : Option (List Glyph) :=
  let r := gs.dropWhile fun g => g.char = ' '
  let r := if atChar '#' r then r.dropWhile fun g => !isBreak g.char else r
  if atBreak r then some (r.drop 1) else none

/-- The line breaks among the spaces of an indentation, and what follows. -/
def blockBreaks (indent : Nat) : List Glyph → List Char × List Glyph
  | [] => ([], [])
  | g :: r =>
    if g.char = ' ' && g.column < indent then blockBreaks indent r
    else if isBreak g.char then
      let (bs, rest) := blockBreaks indent r
      (g.char :: bs, rest)
    else ([], g :: r)

/-- The line breaks among spaces, the deepest column that the spaces reach, and what
    follows. -/
def blockIndent : List Glyph → List Char × Nat × List Glyph
  | [] => ([], 0, [])
  | g :: r =>
    if g.char = ' ' then
      let (bs, n, rest) := blockIndent r
      (bs, Nat.max (g.column + 1) n, rest)
    else if isBreak g.char then
      let (bs, n, rest) := blockIndent r
      (g.char :: bs, n, rest)
    else ([], 0, g :: r)

/-- The lines of a block. -/
structure BlockLines where
  /-- The text up to the last line. -/
  text : List Char := []
  /-- The break of the last line. -/
  lastBreak : List Char := []
  /-- The breaks after it. -/
  moreBreaks : List Char
  /-- What follows. -/
  rest : List Glyph

/-- Whether a line of a block starts with a space or a tab. -/
def startsBlank (gs : List Glyph) : Bool := atChar ' ' gs || atChar '\t' gs

/-- Reads the lines of a block with an indentation, `breaks` being those in front; the number
    bounds the lines. -/
def blockLines (isFolded : Bool) (indent : Nat) : Nat → List Char → List Glyph → BlockLines
  | 0, breaks, gs => { moreBreaks := breaks, rest := gs }
  | n + 1, breaks, gs =>
    if gs.head?.any fun g => g.column = indent then
      let line := chars (gs.takeWhile fun g => !isBreak g.char)
      let after := gs.drop line.length
      let lastBreak := chars (after.take 1)
      let (bs, rest) := blockBreaks indent (after.drop 1)
      if rest.head?.any fun g => g.column = indent then
        let joint :=
          if isFolded && lastBreak = ['\n'] && !startsBlank gs && !startsBlank rest then
            if bs.isEmpty then [' '] else []
          else lastBreak
        let more := blockLines isFolded indent n bs rest
        { more with text := breaks ++ line ++ joint ++ more.text }
      else { text := breaks ++ line, lastBreak := lastBreak, moreBreaks := bs, rest := rest }
    else { moreBreaks := breaks, rest := gs }

/-- The text of a block. -/
def BlockLines.chomped (b : BlockLines) : Chomping → List Char
  | .strip => b.text
  | .clip => b.text ++ b.lastBreak
  | .keep => b.text ++ b.lastBreak ++ b.moreBreaks

/-- Reads a block of lines after its first mark, and what follows it.  Its lines are indented
    to `least` at least; the marks may tell how much deeper they are. -/
def block? (isFolded : Bool) (least : Nat) (gs : List Glyph) : Option (List Char × List Glyph) := do
  let (chomping, increment, r) := blockMarks gs
  guard (increment ≠ some 0 && atSpace r)
  let r ← lineEnd? r
  let (breaks, indent, r) := match increment with
    | some n =>
      let indent := least + n - 1
      let (bs, rest) := blockBreaks indent r
      (bs, indent, rest)
    | none =>
      let (bs, deepest, rest) := blockIndent r
      (bs, Nat.max least deepest, rest)
  let b := blockLines isFolded indent (r.length + 1) breaks r
  return (b.chomped chomping, b.rest)

end PrimaryEnergy.Document.Yaml
