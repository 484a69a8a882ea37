/-
  The shortest decimal that reads back.

  A finite double is written with the fewest digits for which some decimal of that
  many digits rounds to it again; of two such decimals the nearer is taken.  The
  notation is positional while the leading digit stands between `10 ^ -4` and
  `10 ^ 15`, and always shows a point there.

  * `Shortest.select` finds the digits and the exponent;
  * `shortest` lays them out.
-/
import PrimaryEnergy.Decimal.Fixed

namespace PrimaryEnergy.Decimal

namespace Shortest

/-- A decimal `significand · 10 ^ exponent`. -/
structure Scientific where
  /-- The significant digits, read as one number. -/
  significand : Nat
  /-- The power of ten of the last digit. -/
  exponent : Int
deriving DecidableEq, Repr

/-- The value as a quotient of naturals. -/
def Scientific.ratio (d : Scientific) : Nat × Nat :=
  (d.significand * Nat.pow 10 d.exponent.toNat, Nat.pow 10 (-d.exponent).toNat)

/-- Whether the decimal rounds to the positive double with these bits. -/
def Scientific.readsBack (d : Scientific) (bits : Nat) : Bool :=
  magnitudeBits d.ratio.1 d.ratio.2 == bits

/-- The power of ten of the leading digit of `num / den`, for a positive value of a double. -/
def leadingExponent (num den : Nat) : Int :=
  if den ≤ num then ((digits (num / den)).length : Int) - 1
  else -(((List.range 330).find? fun j => den ≤ num * Nat.pow 10 j).getD 330 : Int)

/-- Drops trailing zeros of the significand. -/
def Scientific.strip : Nat → Scientific → Scientific
  | 0, d => d
  | fuel + 1, d =>
    if d.significand % 10 = 0 ∧ 0 < d.significand then
      strip fuel ⟨d.significand / 10, d.exponent + 1⟩
    else d

/-- The nearer of the two neighbours of `num / den` with `n` digits that read back, if any. -/
def candidate (num den bits : Nat) (lead : Int) (n : Nat) : Option Scientific :=
  let e := lead + 1 - n
  let top := num * Nat.pow 10 (-e).toNat
  let bottom := den * Nat.pow 10 e.toNat
  let low : Scientific := ⟨top / bottom, e⟩
  let high : Scientific := ⟨top / bottom + 1, e⟩
  match low.readsBack bits, high.readsBack bits with
  | true, true =>
    let twice := 2 * (top % bottom)
    some (if twice < bottom ∨ (twice = bottom ∧ low.significand % 2 = 0) then low else high)
  | true, false => some low
  | false, true => some high
  | false, false => none

/-- The shortest decimal that reads back as the positive double with the value `num / den`. -/
def select (num den bits : Nat) : Scientific :=
  let lead := leadingExponent num den
  let found := (List.range 17).findSome? fun n => candidate num den bits lead (n + 1)
  (found.getD ⟨num / den, 0⟩).strip 20

/-- Lays out the digits of a decimal: positional or with an exponent of at least two digits. -/
def Scientific.layout (d : Scientific) : List Char :=
  let ds := digits d.significand
  let lead := d.exponent + ds.length - 1
  if -4 ≤ lead ∧ lead < 16 then
    if 0 ≤ d.exponent then ds ++ List.replicate d.exponent.toNat '0' ++ ['.', '0']
    else if 0 ≤ lead then ds.take (lead.toNat + 1) ++ '.' :: ds.drop (lead.toNat + 1)
    else ['0', '.'] ++ List.replicate ((-lead).toNat - 1) '0' ++ ds
  else
    let mantissa := match ds with
      | [] => []
      | [c] => [c]
      | c :: cs => c :: '.' :: cs
    let power := digits lead.natAbs
    mantissa ++ 'e' :: (if lead < 0 then '-' else '+') ::
      ((if power.length < 2 then ['0'] else []) ++ power)

end Shortest

/-- The shortest text that reads back as the double. -/
def shortest (x : Float) : String :=
  match Double.ofFloat x with
  | .nan => "nan"
  | .infinite negative => if negative then "-inf" else "inf"
  | .finite negative m q =>
    let body :=
      if m = 0 then ['0', '.', '0']
      else
        let bits := x.toBits.toNat % signBit
        (Shortest.select (m * Nat.pow 2 q.toNat) (Nat.pow 2 (-q).toNat) bits).layout
    String.ofList ((if negative then ['-'] else []) ++ body)

end PrimaryEnergy.Decimal
