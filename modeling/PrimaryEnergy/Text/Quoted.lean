/-
  Quoted texts in messages.

  A text is put between apostrophes, or between quotation marks if it holds an
  apostrophe and no quotation mark.  The backslash and the mark in use are escaped
  with a backslash, line feed, carriage return and tab by their letters, and every
  other character that shows nothing (controls, formats, separators other than the
  space, private use) by its code in two, four or eight hexadecimal digits.
-/
import PrimaryEnergy.Text.Blank
import PrimaryEnergy.Text.Hex

namespace PrimaryEnergy.Text

/-- The characters that show nothing by themselves: categories Cc, Cf, Co, Zl, Zp and
    Zs, the space apart.  Unassigned code points are not in the set. -/
def hiddenRanges : CharRanges :=
  [(0x0, 0x1F), (0x7F, 0xA0), (0xAD, 0xAD), (0x600, 0x605), (0x61C, 0x61C), (0x6DD, 0x6DD),
   (0x70F, 0x70F), (0x890, 0x891), (0x8E2, 0x8E2), (0x1680, 0x1680), (0x180E, 0x180E),
   (0x2000, 0x200F), (0x2028, 0x202F), (0x205F, 0x2064), (0x2066, 0x206F), (0x3000, 0x3000),
   (0xE000, 0xF8FF), (0xFEFF, 0xFEFF), (0xFFF9, 0xFFFB), (0x110BD, 0x110BD),
   (0x110CD, 0x110CD), (0x13430, 0x13438), (0x1BCA0, 0x1BCA3), (0x1D173, 0x1D17A),
   (0xE0001, 0xE0001), (0xE0020, 0xE007F), (0xF0000, 0xFFFFD), (0x100000, 0x10FFFD)]

def apostrophe : Char := Char.ofNat 39

def quotationMark : Char := Char.ofNat 34

/-- A character inside a quoted text, `mark` being the mark around it. -/
def quotedChar (mark c : Char) : List Char :=
  if c = mark ∨ c = '\\' then ['\\', c]
  else if c = '\n' then ['\\', 'n']
  else if c = '\r' then ['\\', 'r']
  else if c = '\t' then ['\\', 't']
  else if hiddenRanges.has c then
    if c.toNat < 0x100 then '\\' :: 'x' :: hexDigits 2 c.toNat
    else if c.toNat < 0x10000 then '\\' :: 'u' :: hexDigits 4 c.toNat
    else '\\' :: 'U' :: hexDigits 8 c.toNat
  else [c]

/-- The text between marks, with escapes. -/
def quoted (s : String) : String :=
  let mark :=
    if s.toList.contains apostrophe && !s.toList.contains quotationMark then quotationMark
    else apostrophe
  String.ofList (mark :: s.toList.flatMap (quotedChar mark) ++ [mark])

end PrimaryEnergy.Text
