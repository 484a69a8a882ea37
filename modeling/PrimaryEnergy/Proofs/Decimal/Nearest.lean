/-
  Rounding.

  `roundHalfEven` rounds a quotient to a natural number, `nearest` to a double.

  * `IsNearestEven` says what rounding to a natural number is to give; there is only one
    such number (`IsNearestEven.eq`), and `isNearestEven_roundHalfEven` is the one computed;
  * `nearest_spec`: no double is nearer to a quotient than the one computed, unless the
    quotient is too large for a double;
  * `scaledUnits_nearest`: a double rounded to some decimal places keeps these places, when
    the result becomes a double again.
-/
import Mathlib.Algebra.Order.Field.Power
import Mathlib.Algebra.Order.Ring.Rat
import Mathlib.Tactic.FieldSimp
import Mathlib.Tactic.Linarith
import Mathlib.Tactic.NormNum
import Mathlib.Tactic.Positivity
import PrimaryEnergy.Proofs.Decimal.Bits

namespace PrimaryEnergy.Decimal

/-! ## Rounding to a natural number -/

/-- A natural number that no other is nearer to, and that is even if another one is as near. -/
structure IsNearestEven (r : ℚ) (n : ℕ) : Prop where
  /-- It is at most one half away. -/
  near : |r - n| ≤ 1 / 2
  /-- A tie goes to the even number. -/
  even : |r - n| = 1 / 2 → n % 2 = 0

namespace IsNearestEven

variable {r r' : ℚ} {n n' : ℕ}

theorem mono (h : IsNearestEven r n) (h' : IsNearestEven r' n') (hle : r ≤ r') : n ≤ n' := by
  by_contra hlt
  have hs : (n' : ℚ) + 1 ≤ n := by exact_mod_cast not_le.1 hlt
  obtain ⟨h₁, -⟩ := abs_le.1 h.near
  obtain ⟨-, h₂⟩ := abs_le.1 h'.near
  -- both are one half away, so both are even, and they are neighbours
  have hn : n % 2 = 0 := h.even (by rw [abs_of_nonpos] <;> linarith)
  have hn' : n' % 2 = 0 := h'.even (by rw [abs_of_nonneg] <;> linarith)
  have : (n : ℚ) = n' + 1 := by linarith
  have : n = n' + 1 := by exact_mod_cast this
  omega

theorem eq (h : IsNearestEven r n) (h' : IsNearestEven r n') : n = n' :=
  le_antisymm (h.mono h' le_rfl) (h'.mono h le_rfl)

/-- What is as near to the natural number rounds to it, too. -/
theorem of_le (h : IsNearestEven r n) (hle : |r' - n| ≤ |r - n|) : IsNearestEven r' n :=
  ⟨hle.trans h.near, fun ht => h.even (le_antisymm h.near (ht ▸ hle))⟩

/-- No natural number is nearer. -/
theorem dist_le (h : IsNearestEven r n) (k : ℕ) : |r - n| ≤ |r - k| := by
  obtain ⟨h₁, h₂⟩ := abs_le.1 h.near
  rcases lt_trichotomy k n with hk | rfl | hk
  · have : (k : ℚ) + 1 ≤ n := by exact_mod_cast hk
    exact h.near.trans ((by linarith : (1 : ℚ) / 2 ≤ r - k).trans (le_abs_self _))
  · exact le_rfl
  · have : (n : ℚ) + 1 ≤ k := by exact_mod_cast hk
    exact h.near.trans ((by linarith : (1 : ℚ) / 2 ≤ -(r - k)).trans (neg_le_abs _))

end IsNearestEven

theorem isNearestEven_roundHalfEven (num : ℕ) {den : ℕ} (hden : 0 < den) :
    IsNearestEven (num / den) (roundHalfEven num den) := by
  have hd : (0 : ℚ) < den := by exact_mod_cast hden
  have hlt : num % den < den := Nat.mod_lt _ hden
  -- the quotient is `k` and `d` more
  obtain ⟨k, hk⟩ : ∃ k, k = num / den := ⟨_, rfl⟩
  obtain ⟨d, hdef⟩ : ∃ d : ℚ, d = (num % den : ℕ) / den := ⟨_, rfl⟩
  have hr : (num : ℚ) / den = k + d := by
    have : (num : ℚ) = den * k + (num % den : ℕ) := by
      rw [hk]; exact_mod_cast (Nat.div_add_mod num den).symm
    rw [hdef, this]; field_simp
  have hd0 : 0 ≤ d := by rw [hdef]; positivity
  have hd1 : d < 1 := by
    rw [hdef, div_lt_one hd]; exact_mod_cast hlt
  have hsmall : 2 * (num % den) < den ↔ d < 1 / 2 := by
    rw [hdef, div_lt_div_iff₀ hd two_pos, ← Nat.cast_lt (α := ℚ)]
    push_cast
    constructor <;> intro h <;> linarith
  have hlarge : den < 2 * (num % den) ↔ 1 / 2 < d := by
    rw [hdef, div_lt_div_iff₀ two_pos hd, ← Nat.cast_lt (α := ℚ)]
    push_cast
    constructor <;> intro h <;> linarith
  unfold roundHalfEven
  simp only [hsmall, hlarge, ← hk, hr]
  split_ifs with h₁ h₂
  · have : |(k : ℚ) + d - k| = d := by rw [add_sub_cancel_left, abs_of_nonneg hd0]
    exact ⟨by linarith, fun h => by linarith⟩
  · have : |(k : ℚ) + d - (k + 1 : ℕ)| = 1 - d := by
      push_cast; rw [abs_of_nonpos] <;> linarith
    exact ⟨by linarith, fun h => by linarith⟩
  · have hd : d = 1 / 2 := by linarith
    have : |(k : ℚ) + d - (k + k % 2 : ℕ)| = 1 / 2 := by
      rcases Nat.mod_two_eq_zero_or_one k with h | h <;> rw [h, hd] <;> push_cast
      · rw [abs_of_nonneg] <;> linarith
      · rw [abs_of_nonpos] <;> linarith
    exact ⟨this.le, fun _ => by omega⟩

/-! ## Powers of two -/

/-- A power of two as a quotient of naturals. -/
theorem two_zpow (q : ℤ) : (2 : ℚ) ^ q = (2 ^ q.toNat : ℕ) / (2 ^ (-q).toNat : ℕ) := by
  push_cast
  rcases le_total 0 q with h | h
  · rw [Int.toNat_of_nonpos (by omega : -q ≤ 0), pow_zero, div_one, ← zpow_natCast,
      Int.toNat_of_nonneg h]
  · rw [Int.toNat_of_nonpos h, pow_zero, one_div, ← zpow_natCast,
      Int.toNat_of_nonneg (by omega : 0 ≤ -q), zpow_neg, inv_inv]

theorem zpow_add_natCast (q : ℤ) (n : ℕ) : (2 : ℚ) ^ (q + n) = 2 ^ n * 2 ^ q := by
  rw [zpow_add₀ two_ne_zero, zpow_natCast, mul_comm]

theorem isNearestEven_scaledUnits (places m : ℕ) (q : ℤ) :
    IsNearestEven (m * 2 ^ q * 10 ^ places) (scaledUnits places m q) := by
  have hden : 0 < Nat.pow 2 (-q).toNat := Nat.two_pow_pos _
  have h := isNearestEven_roundHalfEven (m * Nat.pow 10 places * Nat.pow 2 q.toNat) hden
  have he : ((m * Nat.pow 10 places * Nat.pow 2 q.toNat : ℕ) : ℚ) / (Nat.pow 2 (-q).toNat : ℕ) =
      m * 2 ^ q * 10 ^ places := by
    rw [two_zpow]
    simp only [Nat.pow_eq]
    push_cast
    ring
  rw [he] at h
  exact h

/-! ## The grid of the doubles around a quotient -/

theorem lt_two_zpow_iff {num den : ℕ} (hden : 0 < den) (e : ℤ) :
    (num : ℚ) / den < 2 ^ e ↔ num * Nat.pow 2 (-e).toNat < den * Nat.pow 2 e.toNat := by
  have hd : (0 : ℚ) < den := by exact_mod_cast hden
  have hp : (0 : ℚ) < (2 ^ (-e).toNat : ℕ) := by positivity
  rw [two_zpow, div_lt_div_iff₀ hd hp, mul_comm ((2 ^ e.toNat : ℕ) : ℚ)]
  exact_mod_cast Iff.rfl

/-- The exponent of the leading bit of a quotient, up to one. -/
theorem zpow_log2_bounds {num den : ℕ} (hnum : num ≠ 0) (hden : den ≠ 0) :
    (2 : ℚ) ^ ((num.log2 : ℤ) - den.log2 - 1) ≤ num / den ∧
      (num : ℚ) / den < 2 ^ ((num.log2 : ℤ) - den.log2 + 1) := by
  have hd : (0 : ℚ) < den := by exact_mod_cast Nat.pos_of_ne_zero hden
  have hn₁ : (2 : ℚ) ^ (num.log2 : ℤ) ≤ num := by
    rw [zpow_natCast]; exact_mod_cast Nat.log2_self_le hnum
  have hn₂ : (num : ℚ) < 2 ^ ((num.log2 : ℤ) + 1) := by
    rw [← Nat.cast_succ, zpow_natCast]; exact_mod_cast Nat.lt_log2_self
  have hd₁ : (2 : ℚ) ^ (den.log2 : ℤ) ≤ den := by
    rw [zpow_natCast]; exact_mod_cast Nat.log2_self_le hden
  have hd₂ : (den : ℚ) < 2 ^ ((den.log2 : ℤ) + 1) := by
    rw [← Nat.cast_succ, zpow_natCast]; exact_mod_cast Nat.lt_log2_self
  constructor
  · rw [le_div_iff₀ hd]
    calc (2 : ℚ) ^ ((num.log2 : ℤ) - den.log2 - 1) * den
        ≤ 2 ^ ((num.log2 : ℤ) - den.log2 - 1) * 2 ^ ((den.log2 : ℤ) + 1) := by gcongr
      _ = 2 ^ (num.log2 : ℤ) := by rw [← zpow_add₀ two_ne_zero]; congr 1; ring
      _ ≤ num := hn₁
  · rw [div_lt_iff₀ hd]
    calc (num : ℚ) < 2 ^ ((num.log2 : ℤ) + 1) := hn₂
      _ = 2 ^ ((num.log2 : ℤ) - den.log2 + 1) * 2 ^ (den.log2 : ℤ) := by
        rw [← zpow_add₀ two_ne_zero]; congr 1; ring
      _ ≤ 2 ^ ((num.log2 : ℤ) - den.log2 + 1) * den := by gcongr

/-- The last place of the doubles around a quotient leaves 53 bits before it, the first of
    which is set unless the place is that of the subnormals. -/
theorem gridExponent_spec (num : ℕ) {den : ℕ} (hden : 0 < den) :
    -1074 ≤ gridExponent num den ∧ (num : ℚ) / den < 2 ^ (gridExponent num den + 53) ∧
      (-1074 < gridExponent num den → (2 : ℚ) ^ (gridExponent num den + 52) ≤ num / den) := by
  unfold gridExponent
  split_ifs with h0
  · subst h0
    refine ⟨le_rfl, ?_, fun h => absurd h (lt_irrefl _)⟩
    rw [Nat.cast_zero, zero_div]; positivity
  · obtain ⟨hlow, hhigh⟩ := zpow_log2_bounds h0 hden.ne'
    simp only [← lt_two_zpow_iff hden]
    -- the exponent of the leading bit
    obtain ⟨lead, hlead, h₁, h₂⟩ : ∃ lead : ℤ,
        lead = (if (num : ℚ) / den < 2 ^ ((num.log2 : ℤ) - den.log2)
          then (num.log2 : ℤ) - den.log2 - 1 else (num.log2 : ℤ) - den.log2) ∧
        (2 : ℚ) ^ lead ≤ num / den ∧ (num : ℚ) / den < 2 ^ (lead + 1) := by
      refine ⟨_, rfl, ?_⟩
      split_ifs with hlt
      · exact ⟨hlow, by rwa [sub_add_cancel]⟩
      · exact ⟨not_lt.1 hlt, hhigh⟩
    rw [← hlead]
    refine ⟨le_max_right _ _, h₂.trans_le ?_, fun h => le_trans ?_ h₁⟩
    · exact zpow_le_zpow_right₀ one_le_two (by omega)
    · exact zpow_le_zpow_right₀ one_le_two (by omega)

/-! ## Rounding to a double -/

/-- The numbers that doubles stand for, apart from their sign and from overflow. -/
def Representable (v : ℚ) : Prop := ∃ (m : ℕ) (q : ℤ), m < 2 ^ 53 ∧ -1074 ≤ q ∧ v = m * 2 ^ q

/-- A multiple of the last place as a double. -/
theorem ofBits_grid (negative : Bool) {m : ℕ} {q : ℤ} (hq : -1074 ≤ q) (hm : m ≤ 2 ^ 53)
    (hlead : -1074 < q → 2 ^ 52 ≤ m)
    (hfin : m + (q + 1074).toNat * exponentBit < infinityBits) :
    ∃ (m' : ℕ) (q' : ℤ),
      Double.ofBits (m + (q + 1074).toNat * exponentBit + signBits negative) =
        .finite negative m' q' ∧ (m' : ℚ) * 2 ^ q' = m * 2 ^ q := by
  have hbit : exponentBit = 2 ^ 52 := rfl
  have hinf : infinityBits = 2047 * 2 ^ 52 := rfl
  rw [hinf, hbit] at hfin
  by_cases hsub : m < 2 ^ 52
  · have hq : q = -1074 := by
      by_contra hne
      exact absurd (hlead (by omega)) (by omega)
    subst hq
    exact ⟨m, -1074, ofBits_fields negative (e := 0) (by decide) hsub, rfl⟩
  · by_cases hcarry : m = 2 ^ 53
    · -- the carry moves to the next exponent
      have hbits : m + (q + 1074).toNat * exponentBit =
          0 + ((q + 1074).toNat + 2) * exponentBit := by
        rw [hcarry, hbit]; omega
      refine ⟨exponentBit, q + 1, ?_, ?_⟩
      · rw [hbits, ofBits_fields negative (by omega) (by decide), if_neg (by omega),
          if_neg (by omega)]
        congr 1
        push_cast
        omega
      · rw [hcarry, hbit, zpow_add_one₀ two_ne_zero]
        push_cast
        ring
    · have hbits : m + (q + 1074).toNat * exponentBit =
          (m - exponentBit) + ((q + 1074).toNat + 1) * exponentBit := by
        rw [hbit]; omega
      have hm' : exponentBit + (m - exponentBit) = m := by rw [hbit]; omega
      have hq' : (((q + 1074).toNat + 1 : ℕ) : ℤ) - 1075 = q := by omega
      refine ⟨m, q, ?_, rfl⟩
      rw [hbits, ofBits_fields negative (by omega) (by rw [hbit]; omega), if_neg (by omega),
        if_neg (by omega), hm', hq']

/-- A quotient rounded to its last place. -/
def gridUnits (num den : ℕ) : ℕ :=
  roundHalfEven (num * Nat.pow 2 (-gridExponent num den).toNat)
    (den * Nat.pow 2 (gridExponent num den).toNat)

section
variable {num den : ℕ}

theorem isNearestEven_gridUnits (num : ℕ) (hden : 0 < den) :
    IsNearestEven (num / den / 2 ^ gridExponent num den) (gridUnits num den) := by
  have hpos : 0 < den * Nat.pow 2 (gridExponent num den).toNat :=
    Nat.mul_pos hden (Nat.two_pow_pos _)
  have h := isNearestEven_roundHalfEven (num * Nat.pow 2 (-gridExponent num den).toNat) hpos
  have he : ((num * Nat.pow 2 (-gridExponent num den).toNat : ℕ) : ℚ) /
      (den * Nat.pow 2 (gridExponent num den).toNat : ℕ) =
        num / den / 2 ^ gridExponent num den := by
    rw [two_zpow (gridExponent num den)]
    simp only [Nat.pow_eq]
    push_cast
    field_simp
  rwa [he] at h

theorem gridUnits_le (num : ℕ) (hden : 0 < den) : gridUnits num den ≤ 2 ^ 53 := by
  obtain ⟨-, hhigh, -⟩ := gridExponent_spec num hden
  have hp : (0 : ℚ) < 2 ^ gridExponent num den := by positivity
  obtain ⟨h, -⟩ := abs_le.1 (isNearestEven_gridUnits num hden).near
  have : (num : ℚ) / den / 2 ^ gridExponent num den < 2 ^ 53 := by
    rw [div_lt_iff₀ hp]
    exact hhigh.trans_eq (zpow_add_natCast _ 53)
  have : (gridUnits num den : ℚ) < (2 ^ 53 + 1 : ℕ) := by push_cast; linarith
  exact Nat.lt_succ_iff.1 (by exact_mod_cast this)

theorem le_gridUnits (hden : 0 < den) (h : -1074 < gridExponent num den) :
    2 ^ 52 ≤ gridUnits num den := by
  obtain ⟨-, -, hlow⟩ := gridExponent_spec num hden
  have hp : (0 : ℚ) < 2 ^ gridExponent num den := by positivity
  obtain ⟨-, hn⟩ := abs_le.1 (isNearestEven_gridUnits num hden).near
  have : (2 : ℚ) ^ 52 ≤ num / den / 2 ^ gridExponent num den := by
    rw [le_div_iff₀ hp]
    exact (zpow_add_natCast _ 52).symm.trans_le (hlow h)
  have : ((2 ^ 52 : ℕ) : ℚ) < (gridUnits num den + 1 : ℕ) := by push_cast; linarith
  exact Nat.lt_succ_iff.1 (by exact_mod_cast this)

/-- Up to the largest double there is no overflow. -/
theorem gridUnits_lt_infinityBits (hden : 0 < den)
    (hmax : (num : ℚ) / den ≤ (2 ^ 53 - 1) * 2 ^ topExponent) :
    gridUnits num den + (gridExponent num den + 1074).toNat * exponentBit < infinityBits := by
  have hbit : exponentBit = 2 ^ 52 := rfl
  have hinf : infinityBits = 2047 * 2 ^ 52 := rfl
  have htop : topExponent = 971 := rfl
  obtain ⟨hq, -, hlow⟩ := gridExponent_spec num hden
  have hle := gridUnits_le num hden
  rw [hinf, hbit]
  rcases lt_or_ge (gridExponent num den) topExponent with h | h
  · omega
  · have hq : gridExponent num den = topExponent := by
      refine le_antisymm (not_lt.1 fun hlt => ?_) h
      have h₁ : (2 : ℚ) ^ (topExponent + (53 : ℕ)) ≤ 2 ^ (gridExponent num den + 52) :=
        zpow_le_zpow_right₀ one_le_two (by omega)
      have h₂ : (0 : ℚ) < 2 ^ topExponent := by positivity
      rw [zpow_add_natCast] at h₁
      linarith [hlow (by omega)]
    have hp : (0 : ℚ) < 2 ^ gridExponent num den := by positivity
    obtain ⟨hn, -⟩ := abs_le.1 (isNearestEven_gridUnits num hden).near
    have : (num : ℚ) / den / 2 ^ gridExponent num den ≤ 2 ^ 53 - 1 := by
      rw [div_le_iff₀ hp, hq]; exact hmax
    have : (gridUnits num den : ℚ) < (2 ^ 53 : ℕ) := by push_cast; linarith
    have : gridUnits num den < 2 ^ 53 := by exact_mod_cast this
    omega

/-- Rounding to a double keeps the order. -/
theorem gridUnits_mono {num' den' : ℕ} (hden : 0 < den) (hden' : 0 < den')
    (hle : (num : ℚ) / den ≤ num' / den') :
    (gridUnits num den : ℚ) * 2 ^ gridExponent num den ≤
      gridUnits num' den' * 2 ^ gridExponent num' den' := by
  obtain ⟨hlow, -, hlead⟩ := gridExponent_spec num hden
  obtain ⟨hlow', hhigh', -⟩ := gridExponent_spec num' hden'
  have hnear := isNearestEven_gridUnits num hden
  have hnear' := isNearestEven_gridUnits num' hden'
  have hunits : (gridUnits num den : ℚ) ≤ 2 ^ 53 := by exact_mod_cast gridUnits_le num hden
  have hunits' : -1074 < gridExponent num' den' → 2 ^ 52 ≤ gridUnits num' den' :=
    le_gridUnits hden'
  generalize gridExponent num den = g at *
  generalize gridExponent num' den' = g' at *
  have hp : (0 : ℚ) < 2 ^ g := by positivity
  rcases lt_trichotomy g g' with h | rfl | h
  · -- a power of two lies between the two results
    have hunits' : (2 ^ 52 : ℚ) ≤ gridUnits num' den' := by exact_mod_cast hunits' (by omega)
    calc (gridUnits num den : ℚ) * 2 ^ g ≤ 2 ^ 53 * 2 ^ g := by gcongr
      _ = 2 ^ (g + (53 : ℕ)) := (zpow_add_natCast g 53).symm
      _ ≤ 2 ^ (g' + (52 : ℕ)) := zpow_le_zpow_right₀ one_le_two (by omega)
      _ = 2 ^ 52 * 2 ^ g' := zpow_add_natCast g' 52
      _ ≤ gridUnits num' den' * 2 ^ g' := by gcongr
  · have hn : gridUnits num den ≤ gridUnits num' den' :=
      hnear.mono hnear' (div_le_div_of_nonneg_right hle hp.le)
    gcongr
  · have hg : -1074 < g := lt_of_le_of_lt hlow' h
    have hlt : (2 : ℚ) ^ (g + 52) < 2 ^ (g' + 53) := ((hlead hg).trans hle).trans_lt hhigh'
    have := (zpow_lt_zpow_iff_right₀ one_lt_two).1 hlt
    omega

/-- No double is nearer to the quotient than the one in its last place. -/
theorem gridUnits_dist_le (hden : 0 < den) {v : ℚ} (hv : Representable v) :
    |(num : ℚ) / den - gridUnits num den * 2 ^ gridExponent num den| ≤ |(num : ℚ) / den - v| := by
  obtain ⟨m, q, hm, hq, rfl⟩ := hv
  obtain ⟨g, hg⟩ : ∃ g, g = gridExponent num den := ⟨_, rfl⟩
  have hp : (0 : ℚ) < 2 ^ g := by positivity
  have hnear := isNearestEven_gridUnits num hden
  obtain ⟨-, -, hlow⟩ := gridExponent_spec num hden
  rw [← hg] at hnear hlow ⊢
  have hscale (k : ℕ) : |(num : ℚ) / den - k * 2 ^ g| = |(num : ℚ) / den / 2 ^ g - k| * 2 ^ g := by
    rw [← abs_of_pos hp, ← abs_mul, abs_of_pos hp, sub_mul, div_mul_cancel₀ _ hp.ne']
  have hgrid (k : ℕ) :
      |(num : ℚ) / den - gridUnits num den * 2 ^ g| ≤ |(num : ℚ) / den - k * 2 ^ g| := by
    rw [hscale, hscale]
    exact mul_le_mul_of_nonneg_right (hnear.dist_le k) hp.le
  rcases le_or_gt g q with h | h
  · -- the double is a multiple of the last place
    have hk : (m : ℚ) * 2 ^ q = (m * 2 ^ (q - g).toNat : ℕ) * 2 ^ g := by
      have : q = g + ((q - g).toNat : ℕ) := by omega
      rw [this, zpow_add_natCast]
      push_cast
      rw [← this]
      ring
    rw [hk]
    exact hgrid _
  · -- the double lies below the least power of two that the quotient reaches
    have hle := hlow (by omega)
    have hpow : ((2 ^ 52 : ℕ) : ℚ) * 2 ^ g = 2 ^ (g + 52) := by
      push_cast; exact (zpow_add_natCast g 52).symm
    have hbelow : (m : ℚ) * 2 ^ q ≤ 2 ^ (g + 52) := by
      have hm' : (m : ℚ) ≤ 2 ^ 53 := by exact_mod_cast hm.le
      calc (m : ℚ) * 2 ^ q ≤ 2 ^ 53 * 2 ^ q := by gcongr
        _ = 2 ^ (q + 53) := (zpow_add_natCast q 53).symm
        _ ≤ 2 ^ (g + 52) := zpow_le_zpow_right₀ one_le_two (by omega)
    refine (hgrid (2 ^ 52)).trans ?_
    rw [hpow, abs_of_nonneg (sub_nonneg.2 hle), abs_of_nonneg (by linarith)]
    linarith

/-- The double that a quotient is rounded to stands for a multiple of its last place. -/
theorem ofFloat_nearest (negative : Bool) (hden : 0 < den)
    (hmax : (num : ℚ) / den ≤ (2 ^ 53 - 1) * 2 ^ topExponent) :
    ∃ (m : ℕ) (q : ℤ), Double.ofFloat (nearest negative num den) = .finite negative m q ∧
      (m : ℚ) * 2 ^ q = gridUnits num den * 2 ^ gridExponent num den := by
  have hfin := gridUnits_lt_infinityBits hden hmax
  obtain ⟨m, q, hbits, hval⟩ := ofBits_grid negative (gridExponent_spec num hden).1
    (gridUnits_le num hden) (le_gridUnits hden) hfin
  refine ⟨m, q, ?_, hval⟩
  have hmag : magnitudeBits num den =
      gridUnits num den + (gridExponent num den + 1074).toNat * exponentBit := min_eq_left hfin.le
  have hsize : gridUnits num den + (gridExponent num den + 1074).toNat * exponentBit +
      signBits negative < 2 ^ 64 := by
    have hinf : infinityBits = 2047 * 2 ^ 52 := rfl
    have : signBits negative ≤ 2 ^ 63 := by cases negative <;> decide
    omega
  rw [nearest, hmag, ofFloat_ofBits hsize (by rw [hbits]; nofun), hbits]

/-- **No double is nearer to a quotient than the one that it is rounded to.** -/
theorem nearest_spec (negative : Bool) (hden : 0 < den)
    (hmax : (num : ℚ) / den ≤ (2 ^ 53 - 1) * 2 ^ topExponent) :
    ∃ (m : ℕ) (q : ℤ), Double.ofFloat (nearest negative num den) = .finite negative m q ∧
      ∀ v, Representable v → |(num : ℚ) / den - m * 2 ^ q| ≤ |(num : ℚ) / den - v| := by
  obtain ⟨m, q, hx, hval⟩ := ofFloat_nearest negative hden hmax
  exact ⟨m, q, hx, fun v hv => hval ▸ gridUnits_dist_le hden hv⟩

end

/-! ## Rounding to decimal places -/

/-- A whole number is not changed by rounding. -/
theorem scaledUnits_of_nonneg (places m : ℕ) {q : ℤ} (h : 0 ≤ q) :
    (scaledUnits places m q : ℚ) = m * 2 ^ q * 10 ^ places := by
  have hn : scaledUnits places m q = m * Nat.pow 10 places * Nat.pow 2 q.toNat := by
    have hq : (-q).toNat = 0 := by omega
    rw [scaledUnits, hq]
    exact roundHalfEven_one _
  have hq : (-q).toNat = 0 := by omega
  rw [hn, two_zpow, hq]
  simp only [Nat.pow_eq]
  push_cast
  ring

/-- Rounding adds less than one. -/
theorem scaledUnits_le (places m : ℕ) (q : ℤ) :
    (scaledUnits places m q : ℚ) ≤ (m * 2 ^ q + 1) * 10 ^ places := by
  have hp : (1 : ℚ) ≤ 10 ^ places := one_le_pow₀ (by norm_num)
  obtain ⟨hn, -⟩ := abs_le.1 (isNearestEven_scaledUnits places m q).near
  rw [add_mul]
  linarith

/-- What a double is rounded to does not exceed the largest double. -/
theorem scaledUnits_div_le (places : ℕ) {m : ℕ} {q : ℤ} (hm : m < 2 ^ 53) (hq : q ≤ topExponent) :
    (scaledUnits places m q : ℚ) / (10 ^ places : ℕ) ≤ (2 ^ 53 - 1) * 2 ^ topExponent := by
  have hm : (m : ℚ) ≤ 2 ^ 53 - 1 := by
    have : ((m + 1 : ℕ) : ℚ) ≤ (2 ^ 53 : ℕ) := by exact_mod_cast hm
    push_cast at this; linarith
  have hp : (0 : ℚ) < 10 ^ places := by positivity
  rw [Nat.cast_pow, Nat.cast_ofNat, div_le_iff₀ hp]
  rcases le_or_gt 0 q with h | h
  · rw [scaledUnits_of_nonneg places m h]
    have : (2 : ℚ) ^ q ≤ 2 ^ topExponent := zpow_le_zpow_right₀ one_le_two hq
    have : (m : ℚ) * 2 ^ q ≤ (2 ^ 53 - 1) * 2 ^ topExponent :=
      mul_le_mul hm this (by positivity) (by norm_num)
    exact mul_le_mul_of_nonneg_right this hp.le
  · refine (scaledUnits_le places m q).trans (mul_le_mul_of_nonneg_right ?_ hp.le)
    have hq : (2 : ℚ) ^ q ≤ 1 := zpow_le_one_of_nonpos₀ one_le_two h.le
    have hv : (m : ℚ) * 2 ^ q ≤ (2 ^ 53 - 1) * 1 :=
      mul_le_mul hm hq (by positivity) (by norm_num)
    have htop : (2 : ℚ) ^ (1 : ℤ) ≤ 2 ^ topExponent := zpow_le_zpow_right₀ one_le_two (by decide)
    rw [zpow_one] at htop
    linarith

/-- **A double rounded to decimal places keeps them**: the double nearest to the decimal is
    rounded to it again. -/
theorem scaledUnits_nearest (negative : Bool) (places : ℕ) {m : ℕ} {q : ℤ} (hm : m < 2 ^ 53)
    (hlow : -1074 ≤ q) (hhigh : q ≤ topExponent) :
    ∃ (m' : ℕ) (q' : ℤ),
      Double.ofFloat (nearest negative (scaledUnits places m q) (10 ^ places)) =
        .finite negative m' q' ∧ scaledUnits places m' q' = scaledUnits places m q := by
  have hp : (0 : ℚ) < 10 ^ places := by positivity
  obtain ⟨m', q', hx, hnear⟩ := nearest_spec negative
    (Nat.pow_pos (n := places) (by decide : 0 < 10)) (scaledUnits_div_le places hm hhigh)
  refine ⟨m', q', hx, ?_⟩
  have h := isNearestEven_scaledUnits places m q
  refine (isNearestEven_scaledUnits places m' q').eq (h.of_le ?_)
  -- the double that was rounded is itself one that the new double competes with
  have hle := hnear _ ⟨m, q, hm, hlow, rfl⟩
  have hscale (v : ℚ) : |v * 10 ^ places - scaledUnits places m q| =
      |(scaledUnits places m q : ℚ) / (10 ^ places : ℕ) - v| * 10 ^ places := by
    rw [abs_sub_comm, ← abs_of_pos hp, ← abs_mul, abs_of_pos hp]
    push_cast
    rw [sub_mul, div_mul_cancel₀ _ hp.ne']
  rw [hscale, hscale]
  exact mul_le_mul_of_nonneg_right hle hp.le

end PrimaryEnergy.Decimal
