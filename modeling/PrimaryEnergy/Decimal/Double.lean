/-
  Doubles as exact numbers.

  A double is not a number, an infinity, or exactly `± m · 2 ^ q` with naturals
  `m < 2 ^ 53` and `-1074 ≤ q`.  Every text of this library that shows a double,
  or is read as one, goes through this exact value, so that no rounding happens
  except where it is stated.

  * `Double.ofFloat` decodes the bits;
  * `roundHalfEven` rounds a quotient of naturals to an integer, ties to even;
  * `magnitudeBits` rounds a quotient of naturals to the nearest double, ties to
    even, subnormals and overflow included, and `nearest` adds the sign.
-/
namespace PrimaryEnergy.Decimal

/-! ## Layout of the bits -/

/-- The weight of the sign bit. -/
def signBit : Nat := Nat.pow 2 63

/-- The weight of the lowest exponent bit, and of the leading bit that is not stored. -/
def exponentBit : Nat := Nat.pow 2 52

/-- The bits of positive infinity. -/
def infinityBits : Nat := 2047 * exponentBit

/-- The weight of the sign. -/
def signBits (negative : Bool) : Nat := if negative then signBit else 0

/-! ## Decoding -/

/-- What a double stands for. -/
inductive Double where
  | nan
  | infinite (negative : Bool)
  /-- The number `± m · 2 ^ q`; zero keeps its sign. -/
  | finite (negative : Bool) (m : Nat) (q : Int)
deriving DecidableEq, Repr

namespace Double

/-- The exact value of a bit pattern: one sign bit, eleven exponent bits and 52
    fraction bits, the least exponent being that of the subnormals. -/
def ofBits (b : Nat) : Double :=
  let negative : Bool := b / signBit % 2 == 1
  let e : Nat := b / exponentBit % 2048
  let f : Nat := b % exponentBit
  if e = 2047 then
    if f = 0 then .infinite negative else .nan
  else if e = 0 then .finite negative f (-1074)
  else .finite negative (exponentBit + f) ((e : Int) - 1075)

/-- The exact value of a double. -/
def ofFloat (x : Float) : Double := ofBits x.toBits.toNat

end Double

/-! ## Rounding a quotient to an integer -/

/-- `num / den` rounded to the nearest integer; a tie goes to the even one. -/
def roundHalfEven (num den : Nat) : Nat :=
  let k := num / den
  let r := num % den
  if 2 * r < den then k else if den < 2 * r then k + 1 else k + k % 2

@[simp] theorem roundHalfEven_one (num : Nat) : roundHalfEven num 1 = num := by
  simp [roundHalfEven, Nat.mod_one]

/-- The exact number `m · 2 ^ q · 10 ^ places` rounded to an integer, ties to even. -/
def scaledUnits (places m : Nat) (q : Int) : Nat :=
  roundHalfEven (m * Nat.pow 10 places * Nat.pow 2 q.toNat) (Nat.pow 2 (-q).toNat)

/-! ## Rounding a quotient to a double -/

/-- The exponent of two of the last place of the doubles around `num / den`: 52
    below its leading bit, but never below that of the subnormals; zero is one of them. -/
def gridExponent (num den : Nat) : Int :=
  if num = 0 then -1074 else
  let e : Int := (num.log2 : Int) - den.log2
  let lead := if num * Nat.pow 2 (-e).toNat < den * Nat.pow 2 e.toNat then e - 1 else e
  max (lead - 52) (-1074)

/-- The bits of the double nearest to `num / den`, ties to even.  With the last
    place at `2 ^ q` and the significand `m`, the bits are `m + (q + 1074) · 2 ^ 52`,
    also when `m` reaches `2 ^ 53`: the carry moves to the next exponent. -/
def magnitudeBits (num den : Nat) : Nat :=
  let q := gridExponent num den
  let m := roundHalfEven (num * Nat.pow 2 (-q).toNat) (den * Nat.pow 2 q.toNat)
  min (m + (q + 1074).toNat * exponentBit) infinityBits

/-- The double nearest to `± num / den`, ties to even. -/
def nearest (negative : Bool) (num den : Nat) : Float :=
  Float.ofBits (UInt64.ofNat (magnitudeBits num den + signBits negative))

def infinity (negative : Bool) : Float :=
  Float.ofBits (UInt64.ofNat (infinityBits + signBits negative))

/-- The double nearest to `± m · 10 ^ e`, ties to even.  Exponents far outside the
    range of the doubles are decided without computing the power. -/
def nearestDecimal (negative : Bool) (m : Nat) (e : Int) : Float :=
  if m = 0 then nearest negative 0 1
  else if 400 < e then infinity negative
  else if e < -(400 + (m.log2 : Int)) then nearest negative 0 1
  else nearest negative (m * Nat.pow 10 e.toNat) (Nat.pow 10 (-e).toNat)

/-- The double with the value not a number. -/
def notANumber : Float := Float.ofBits 0x7FF8000000000000

end PrimaryEnergy.Decimal
