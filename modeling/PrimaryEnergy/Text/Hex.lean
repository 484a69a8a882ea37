/-
  Characters written by their codes.

  A code is written in hexadecimal digits after one of the letters `x`, `u` and `U`, which
  tell how many digits there are.  A character beyond the first 65536 may also be written
  by the two halves of its UTF-16 form, each after a backslash and `u`.

  * `hexDigits` writes a number, `hexValue?` reads one;
  * `codedChar?` reads a character.
-/
namespace PrimaryEnergy.Text

/-- The lower-case hexadecimal digits of `n`, at least `width` of them. -/
def hexDigits (width n : Nat) : List Char :=
  let ds := Nat.toDigits 16 n
  List.replicate (width - ds.length) '0' ++ ds

/-- The value of a hexadecimal digit. -/
def hexDigit? (c : Char) : Option Nat :=
  ['0', '1', '2', '3', '4', '5', '6', '7', '8', '9', 'a', 'b', 'c', 'd', 'e', 'f'].idxOf? c.toLower

/-- The number written by hexadecimal digits. -/
def hexValue? (ds : List Char) : Option Nat :=
  ds.foldlM (fun n c => (hexDigit? c).map (16 * n + ·)) 0

/-- How many digits follow a letter. -/
def codeWidth? (c : Char) : Option Nat :=
  if c = 'x' then some 2 else if c = 'u' then some 4 else if c = 'U' then some 8 else none

/-- The code written by the first `width` characters. -/
def code? (width : Nat) (s : List Char) : Option Nat :=
  if s.length < width then none else hexValue? (s.take width)

/-- The character with the two halves of a UTF-16 form. -/
def pairedChar? (high low : Nat) : Option Char :=
  if 0xD800 ≤ high ∧ high < 0xDC00 ∧ 0xDC00 ≤ low ∧ low < 0xE000 then
    some (Char.ofNat (0x10000 + (high - 0xD800) * 0x400 + (low - 0xDC00)))
  else none

/-- Reads a letter with a code after it: the character, and how many characters it takes. -/
def codedChar? : List Char → Option (Char × Nat)
  | [] => none
  | letter :: s => do
    let width ← codeWidth? letter
    let n ← code? width s
    if n.isValidChar then some (Char.ofNat n, width + 1)
    else match s.drop width with
      | '\\' :: 'u' :: r =>
        let c ← pairedChar? n (← code? 4 r)
        some (c, width + 7)
      | _ => none

end PrimaryEnergy.Text
