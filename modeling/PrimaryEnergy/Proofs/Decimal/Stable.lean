/-
  Texts with decimal places as an encoding of doubles.

  A text with `k` places does not keep a double, but it keeps what it says of it:

  * `shows_fixed`: it shows the multiple of `10 ^ -k` nearest to the exact value, ties to even
    (`isNearestEven_scaledUnits`), with the sign of the double;
  * `nearest_roundedTo`: the double that is read is the one nearest to this multiple;
  * `fixed_stable`: these together, and that both grammars of numbers read the same double,
    which has the same text.

  Where doubles are further apart than `10 ^ -k`, the text says all of the double; where they
  are closer, many have the same text.  Both sides are `scaledUnits_nearest`: the double that
  was written competes with the one that is read, so this one is no further from the multiple.
-/
import PrimaryEnergy.Proofs.Decimal.Written

namespace PrimaryEnergy.Decimal

section
variable {places m : ℕ} {negative : Bool} {q : ℤ} {x : Float}

/-- The text of a finite double shows its exact value, rounded to decimal places. -/
theorem shows_fixed (hx : Double.ofFloat x = .finite negative m q) :
    Shows places negative (scaledUnits places m q) (fixed places x).toList := by
  rw [toList_fixed, fixedChars, hx]
  exact shows_fixedUnits places negative _

/-- No double is nearer to what the text shows than the one that is read. -/
theorem nearest_roundedTo (hx : Double.ofFloat x = .finite negative m q) :
    ∃ (m' : ℕ) (q' : ℤ), Double.ofFloat (roundedTo places x) = .finite negative m' q' ∧
      ∀ v, Representable v →
        |(scaledUnits places m q : ℚ) / 10 ^ places - m' * 2 ^ q'| ≤
          |(scaledUnits places m q : ℚ) / 10 ^ places - v| := by
  obtain ⟨hm, -, hhigh⟩ := ofFloat_bounds hx
  obtain ⟨m', q', hy, hnear⟩ := nearest_spec negative
    (Nat.pow_pos (n := places) (by decide : 0 < 10)) (scaledUnits_div_le places hm hhigh)
  rw [← roundedTo_of_ofFloat hx] at hy
  push_cast at hnear
  exact ⟨m', q', hy, hnear⟩

end

/-- **Text with decimal places is a stable encoding of doubles.**  Numbers of components are
    written with two places, those of factors, metadata and pairs with three.  For any number of
    places, both grammars of numbers read the text of a double as the same double, which has the
    same text.  What is not finite is read as itself.  The text of a finite double shows the
    decimal nearest to its exact value, ties to even, with its sign, also if that decimal is
    zero; and what is read is the double with this sign that is nearest to the decimal. -/
theorem fixed_stable (places : ℕ) (x : Float) :
    ∃ y : Float, freeNumber? (fixed places x).toList = some y ∧
      fieldNumber? (fixed places x).toList = some y ∧
      fixed places y = fixed places x ∧
      (¬ IsFinite x → y = x) ∧
      ∀ negative m q, Double.ofFloat x = .finite negative m q →
        ∃ n : ℕ, IsNearestEven (m * 2 ^ q * 10 ^ places) n ∧
          Shows places negative n (fixed places x).toList ∧
          ∃ (m' : ℕ) (q' : ℤ), Double.ofFloat y = .finite negative m' q' ∧
            ∀ v, Representable v →
              |(n : ℚ) / 10 ^ places - m' * 2 ^ q'| ≤ |(n : ℚ) / 10 ^ places - v| := by
  refine ⟨roundedTo places x, ?_, ?_, fixed_roundedTo places x, roundedTo_of_not_isFinite,
    fun negative m q hx => ⟨scaledUnits places m q, isNearestEven_scaledUnits places m q,
      shows_fixed hx, nearest_roundedTo hx⟩⟩
  · rw [toList_fixed, freeNumber?_fixedChars]
  · rw [toList_fixed, fieldNumber?_fixedChars]

/-- The double with the value one eighth. -/
def eighth : Float := Float.ofBits 0x3FC0000000000000

/-- One eighth is halfway between two decimals with two places, and is written as the even one;
    and an infinity is read as itself. -/
theorem fixed_stable_eighth_infinity :
    (Shows 2 false 12 (fixed 2 eighth).toList ∧
      ∃ y, freeNumber? (fixed 2 eighth).toList = some y ∧ fixed 2 y = fixed 2 eighth) ∧
    freeNumber? (fixed 3 (infinity true)).toList = some (infinity true) := by
  constructor
  · obtain ⟨y, hfree, -, htext, -, hfinite⟩ := fixed_stable 2 eighth
    obtain ⟨n, hn, hshows, -⟩ := hfinite false (2 ^ 52) (-55) rfl
    have htie : ((2 ^ 52 : ℕ) : ℚ) * 2 ^ (-55 : ℤ) * 10 ^ 2 = 25 / 2 := by norm_num
    have h12 : IsNearestEven (25 / 2) 12 :=
      ⟨by norm_num [abs_of_pos], fun _ => rfl⟩
    rw [htie] at hn
    obtain rfl : n = 12 := hn.eq h12
    exact ⟨hshows, y, hfree, htext⟩
  · obtain ⟨y, hfree, -, -, hspecial, -⟩ := fixed_stable 3 (infinity true)
    have hy : y = infinity true := hspecial Bool.false_ne_true
    rw [hfree, hy]

end PrimaryEnergy.Decimal
