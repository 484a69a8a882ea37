/-
  Decimals with a fixed number of places.

  A finite double is written with `k` places by rounding its exact value to a
  multiple of `10 ^ -k`, ties to even; the sign is that of the double, also for a
  result of zero.  All digits before the point are written, however many.

  * `digits` and `lowDigits` are the decimal digits of a natural number, all of
    them or the last `k` (`length_lowDigits`);
  * `fixed` is the text of a double.
-/
import PrimaryEnergy.Decimal.Double

namespace PrimaryEnergy.Decimal

/-! ## Digits -/

/-- The character of a decimal digit. -/
def digitChar (d : Nat) : Char := Char.ofNat (48 + d % 10)

/-- The decimal digits of `n`, without leading zeros. -/
def digits (n : Nat) : List Char :=
  if n < 10 then [digitChar n] else digits (n / 10) ++ [digitChar n]

/-- The last `k` decimal digits of `n`, leading zeros included. -/
def lowDigits : Nat → Nat → List Char
  | 0, _ => []
  | k + 1, n => lowDigits k (n / 10) ++ [digitChar n]

@[simp] theorem length_lowDigits (k n : Nat) : (lowDigits k n).length = k := by
  induction k generalizing n with
  | zero => rfl
  | succ k ih => simp [lowDigits, ih]

theorem digits_ne_nil (n : Nat) : digits n ≠ [] := by
  unfold digits; split <;> simp

/-! ## Fixed places -/

/-- The text of `± n · 10 ^ -places`. -/
def fixedUnits (places : Nat) (negative : Bool) (n : Nat) : List Char :=
  (if negative then ['-'] else []) ++ digits (n / Nat.pow 10 places) ++
    (if places = 0 then [] else '.' :: lowDigits places n)

/-- The characters of a double with the given number of places. -/
def fixedChars (places : Nat) (x : Float) : List Char :=
  match Double.ofFloat x with
  | .nan => ['n', 'a', 'n']
  | .infinite negative => (if negative then ['-'] else []) ++ ['i', 'n', 'f']
  | .finite negative m q => fixedUnits places negative (scaledUnits places m q)

/-- The text of a double with the given number of places. -/
def fixed (places : Nat) (x : Float) : String := String.ofList (fixedChars places x)

end PrimaryEnergy.Decimal
