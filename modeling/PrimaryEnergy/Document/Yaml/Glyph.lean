/-
  The characters of a YAML text, each with its place.

  A text may hold only certain characters (`isAllowed`).  Every way to break a line counts
  as a line feed, the line and paragraph separators apart, which stand for themselves; a
  byte order mark takes no column, and one at the start of a text is no part of it.

  `glyphs?` lays a text out.
-/
import PrimaryEnergy.Text.Lines

namespace PrimaryEnergy.Document.Yaml

open Text

/-- A character and where it stands. -/
structure Glyph where
  char : Char
  /-- The number of characters before it. -/
  index : Nat
  /-- The number of lines before it. -/
  line : Nat
  /-- The number of characters before it in its line. -/
  column : Nat
deriving DecidableEq, Repr

/-! ## Characters -/

/-- The code points that a text may hold. -/
def allowedRanges : CharRanges :=
  [(0x09, 0x0A), (0x0D, 0x0D), (0x20, 0x7E), (0x85, 0x85), (0xA0, 0xD7FF), (0xE000, 0xFFFD),
   (0x10000, 0x10FFFF)]

/-- Whether a text may hold a character. -/
def isAllowed (c : Char) : Bool := allowedRanges.has c

/-- The mark that may stand at the start of a text. -/
def byteOrderMark : Char := Char.ofNat 0xFEFF

/-- Whether a character breaks a line, once `evenBreaks` is applied. -/
def isBreak (c : Char) : Bool := c = '\n' || c.toNat = 0x2028 || c.toNat = 0x2029

/-- Whether a character is a space, a tab or a line break. -/
def isGap (c : Char) : Bool := c = ' ' || c = '\t' || isBreak c

/-- Whether the text ends or there is a space, a tab or a line break. -/
def atGap (gs : List Glyph) : Bool := gs.head?.all fun g => isGap g.char

/-- Whether the text ends or there is a space or a line break. -/
def atSpace (gs : List Glyph) : Bool := gs.head?.all fun g => g.char = ' ' || isBreak g.char

/-- Whether the text ends or there is a line break. -/
def atBreak (gs : List Glyph) : Bool := gs.head?.all fun g => isBreak g.char

/-- Whether the next character is this one. -/
def atChar (c : Char) (gs : List Glyph) : Bool := gs.head?.any fun g => g.char = c

/-- Whether three hyphens or three points stand here by themselves: at the start of a line
    they separate documents. -/
def atSeparator : List Glyph → Bool
  | a :: b :: c :: r =>
    a.char = b.char && b.char = c.char && (a.char = '-' || a.char = '.') && atGap r
  | _ => false

/-! ## Layout -/

/-- Writes every way to break a line as a line feed. -/
def evenBreaks (s : List Char) : List Char :=
  (plainBreaks s).map fun c => if c.toNat = 0x85 then '\n' else c

/-- Tells the places of characters, the first of which stands at a place. -/
def placed (index line column : Nat) : List Char → List Glyph
  | [] => []
  | c :: r =>
    ⟨c, index, line, column⟩ ::
      if isBreak c then placed (index + 1) (line + 1) 0 r
      else placed (index + 1) line (if c = byteOrderMark then column else column + 1) r

/-- The text without a byte order mark at its start. -/
def withoutMark : List Char → List Char
  | [] => []
  | c :: r => if c = byteOrderMark then r else c :: r

/-- The characters of a text with their places, if it may hold all of them. -/
def glyphs? (s : List Char) : Option (List Glyph) :=
  if s.all isAllowed then some (placed 0 0 0 (evenBreaks (withoutMark s))) else none

/-- The characters alone. -/
def chars (gs : List Glyph) : List Char := gs.map Glyph.char

end PrimaryEnergy.Document.Yaml
