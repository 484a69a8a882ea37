/-
  Unpacked doubles.

  Arithmetic on doubles is defined on what they are unpacked to: a sign, a significand and an
  exponent.  Exact results are cut to 53 places, rounding to even, and packed again.

  * `IsShifted.rounded`: what the round bit and the sticky bit of a shifted significand tell;
  * `round_spec`: a number that is rounded to 53 places changes by a factor of at most `slack`;
  * `ofBits_toNat` and `packed_finite`: unpacking and packing keep what a pattern stands for, up to
    numbers that are too large for a double.
-/
import PrimaryEnergy.Proofs.Decimal.Nearest

namespace PrimaryEnergy.Decimal

open Float.Model Float.Model.UnpackedFloat

/-! ## Shifted significands -/

/-- The significand `m` after a shift by `k` places, with what is known of the places lost. -/
structure IsShifted (m k : ℕ) (x : ExtendedMantissa) : Prop where
  /-- The places that are left. -/
  mantissa : x.mantissa = m / 2 ^ k
  /-- Whether the places lost make up one half at least. -/
  half : x.roundBit = true ↔ 2 ^ k ≤ 2 * (m % 2 ^ k)
  /-- Whether they are something besides the half. -/
  rest : x.stickyBit = true ↔ 2 * (m % 2 ^ k) % 2 ^ k ≠ 0

theorem isShifted_zero (m : ℕ) : IsShifted m 0 (.ofMantissaAndAccuracy m .exact) := by
  refine ⟨(Nat.div_one m).symm, ?_, ?_⟩ <;>
    simp [ExtendedMantissa.ofMantissaAndAccuracy, Nat.mod_one]

theorem IsShifted.succ {m k : ℕ} {x : ExtendedMantissa} (h : IsShifted m k x) :
    IsShifted m (k + 1) x.shiftRightOne := by
  have hp : 0 < 2 ^ k := Nat.two_pow_pos k
  have hr : m % 2 ^ k < 2 ^ k := Nat.mod_lt _ hp
  have hb : m / 2 ^ k % 2 < 2 := Nat.mod_lt _ two_pos
  have hmod : m % 2 ^ (k + 1) = m % 2 ^ k + 2 ^ k * (m / 2 ^ k % 2) := by
    rw [pow_succ, Nat.mod_mul]
  have hrest : 2 * (m % 2 ^ (k + 1)) % 2 ^ (k + 1) = 2 * (m % 2 ^ k) := by
    rw [pow_succ', Nat.mul_mod_mul_left, Nat.mul_comm 2 (2 ^ k), Nat.mod_mul_right_mod]
  refine ⟨?_, ?_, ?_⟩
  · rw [pow_succ, ← Nat.div_div_eq_div_mul, ← h.mantissa]
    rfl
  · have hbit : x.shiftRightOne.roundBit = (m / 2 ^ k % 2 != 0) := by
      rw [← h.mantissa]; rfl
    rw [hbit, hmod, pow_succ, bne_iff_ne]
    rcases Nat.mod_two_eq_zero_or_one (m / 2 ^ k) with h0 | h1
    · rw [h0]; omega
    · rw [h1]; omega
  · have hbit : x.shiftRightOne.stickyBit = (x.roundBit || x.stickyBit) := rfl
    rw [hbit, Bool.or_eq_true, h.half, h.rest, hrest]
    constructor
    · rintro (h' | h') h0
      · omega
      · exact h' (by rw [h0]; exact Nat.zero_mod _)
    · intro h0
      by_contra hn
      rw [not_or, not_le, not_not] at hn
      rw [Nat.mod_eq_of_lt hn.1] at hn
      exact h0 hn.2

theorem isShifted_shift (m k : ℕ) :
    IsShifted m k (ExtendedMantissa.ofMantissaAndAccuracy m .exact >>> k) := by
  induction k with
  | zero => exact isShifted_zero m
  | succ k ih => exact ih.succ

section
variable {m k : ℕ} {x : ExtendedMantissa}

/-- Rounding goes to the nearer one of the two neighbours. -/
theorem IsShifted.rounded (h : IsShifted m k x) :
    x.roundedMantissa = m / 2 ^ k ∧ 2 * (m % 2 ^ k) ≤ 2 ^ k ∨
      x.roundedMantissa = m / 2 ^ k + 1 ∧ 2 ^ k ≤ 2 * (m % 2 ^ k) := by
  have hr : m % 2 ^ k < 2 ^ k := Nat.mod_lt _ (Nat.two_pow_pos k)
  obtain ⟨q, half, rest⟩ := x
  obtain ⟨rfl, hhalf, hrest⟩ := h
  cases half with
  | false =>
    have hlt : 2 * (m % 2 ^ k) < 2 ^ k := not_le.1 fun hle => Bool.false_ne_true (hhalf.2 hle)
    cases rest <;> exact Or.inl ⟨rfl, hlt.le⟩
  | true =>
    have hle : 2 ^ k ≤ 2 * (m % 2 ^ k) := hhalf.1 rfl
    cases rest with
    | true => exact Or.inr ⟨rfl, hle⟩
    | false =>
      -- a tie
      have h0 : 2 * (m % 2 ^ k) % 2 ^ k = 0 :=
        not_not.1 fun hne => Bool.false_ne_true (hrest.2 hne)
      rw [Nat.mod_eq_sub_mod hle, Nat.mod_eq_of_lt (by omega)] at h0
      rcases Nat.mod_two_eq_zero_or_one (m / 2 ^ k) with he | ho
      · exact Or.inl ⟨congrArg (m / 2 ^ k + ·) he, by omega⟩
      · exact Or.inr ⟨congrArg (m / 2 ^ k + ·) ho, hle⟩

/-- Rounding changes a significand by half a place at most. -/
theorem IsShifted.rounded_bounds (h : IsShifted m k x) :
    2 * m ≤ (2 * x.roundedMantissa + 1) * 2 ^ k ∧
      2 * x.roundedMantissa * 2 ^ k ≤ 2 * m + 2 ^ k := by
  have hm : m / 2 ^ k * 2 ^ k + m % 2 ^ k = m := Nat.div_add_mod' m (2 ^ k)
  rcases h.rounded with ⟨hR, hle⟩ | ⟨hR, hle⟩
  · rw [hR, add_mul, mul_assoc]
    constructor <;> omega
  · rw [hR, add_mul, mul_assoc, add_mul (m / 2 ^ k)]
    constructor <;> omega

end

/-! ## Rounding to 53 places -/

/-- A rounding to 53 places changes a number by at most this factor, up or down. -/
def slack : ℚ := 1 + 1 / 2 ^ 53

/-- What significands of doubles are like, apart from overflow. -/
structure IsSignificand (m : ℕ) (q : ℤ) : Prop where
  lt : m < 2 ^ 53
  low : -1074 ≤ q
  /-- The leading place is taken, unless the number is subnormal. -/
  lead : q = -1074 ∨ 2 ^ 52 ≤ m

/-- The exponent for the last place of a number with 53 places. -/
theorem targetExponent_eq (m : ℕ) (e : ℤ) :
    Format.binary64.targetExponent (totalExponent m e) = max (m.log2 + e - 52) (-1074) := by
  show max ((m.log2 : ℤ) + 1 + e - 53) (-1074) = _
  congr 1
  omega

theorem log2_shiftLeft {m : ℕ} (hm : m ≠ 0) (k : ℕ) : (m <<< k).log2 = m.log2 + k := by
  have hne : m <<< k ≠ 0 := by
    rw [Nat.shiftLeft_eq]
    exact Nat.mul_ne_zero hm (Nat.two_pow_pos k).ne'
  rw [Nat.log2_eq_iff hne, Nat.shiftLeft_eq, pow_add, Nat.add_right_comm, pow_add]
  exact ⟨Nat.mul_le_mul_right _ (Nat.log2_self_le hm),
    Nat.mul_lt_mul_of_pos_right Nat.lt_log2_self (Nat.two_pow_pos k)⟩

/-- A number with 53 places stays as it is; a carry moves it by one place. -/
theorem shift_carry {m : ℕ} {q : ℤ} (hm : m ≤ 2 ^ 53) (hq : -1074 ≤ q)
    (hlead : q = -1074 ∨ 2 ^ 52 ≤ m) :
    ∃ m' q', (shiftToTargetExponent .binary64 m q .exact).1.mantissa = m' ∧
      (shiftToTargetExponent .binary64 m q .exact).2 = q' ∧ IsSignificand m' q' ∧
      (m' : ℚ) * 2 ^ q' = m * 2 ^ q := by
  unfold shiftToTargetExponent
  simp only [targetExponent_eq]
  rcases hm.lt_or_eq with hlt | rfl
  · have hlog : m.log2 ≤ 52 := by
      rcases Nat.eq_zero_or_pos m with rfl | hpos
      · decide
      · exact Nat.lt_succ_iff.1 ((Nat.log2_lt hpos.ne').2 hlt)
    have hk : (max (m.log2 + q - 52) (-1074) - q).toNat = 0 := by omega
    refine ⟨m, q, ?_, ?_, ⟨hlt, hq, hlead⟩, rfl⟩
    · simp only [shiftToExponent, hk]; rfl
    · simp only [shiftToExponent, hk]; exact add_zero q
  · have hk : (max ((2 ^ 53 : ℕ).log2 + q - 52) (-1074) - q).toNat = 1 := by
      rw [Nat.log2_two_pow]; omega
    refine ⟨2 ^ 52, q + 1, ?_, ?_, ⟨by decide, by omega, Or.inr le_rfl⟩, ?_⟩
    · simp only [shiftToExponent, hk]; rfl
    · simp only [shiftToExponent, hk]; rfl
    · rw [zpow_add_one₀ two_ne_zero]
      push_cast
      ring

/-- A number cut to 53 places: there is no carry beyond the next power of two, the leading place
    stays, and what is lost is at most half of the last place. -/
theorem rounded_spec {n k r : ℕ} (hn : n ≠ 0)
    (hr : r = (ExtendedMantissa.ofMantissaAndAccuracy n .exact >>> k).roundedMantissa)
    (hlog : n.log2 = 52 + k ∨ n.log2 ≤ 52 ∧ k = 0) :
    r ≤ 2 ^ 53 ∧ (n.log2 = 52 + k → 2 ^ 52 ≤ r) ∧
      (r : ℚ) * 2 ^ k ≤ slack * n ∧ (n : ℚ) ≤ slack * (r * 2 ^ k) := by
  obtain ⟨hlow, hhigh⟩ := (isShifted_shift n k).rounded_bounds
  rw [← hr] at hlow hhigh
  have hp : 0 < 2 ^ k := Nat.two_pow_pos k
  have hlt : n < 2 ^ 53 * 2 ^ k := by
    rw [← pow_add]
    exact (Nat.log2_lt hn).1 (by omega)
  have hle : r ≤ 2 ^ 53 := by
    by_contra hlt'
    have := Nat.mul_le_mul_right (2 ^ k) (Nat.succ_le_of_lt (not_le.1 hlt'))
    rw [Nat.succ_mul] at this
    rw [mul_assoc] at hhigh
    omega
  have hlead : n.log2 = 52 + k → 2 ^ 52 * 2 ^ k ≤ n ∧ 2 ^ 52 ≤ r := by
    intro h
    have hn' : 2 ^ 52 * 2 ^ k ≤ n := by
      rw [← pow_add, ← h]
      exact Nat.log2_self_le hn
    refine ⟨hn', ?_⟩
    by_contra hlt'
    have := Nat.mul_le_mul_right (2 ^ k) (Nat.succ_le_of_lt (not_le.1 hlt'))
    rw [Nat.succ_mul] at this
    rw [add_mul, mul_assoc, one_mul] at hlow
    omega
  refine ⟨hle, fun h => (hlead h).2, ?_⟩
  unfold slack
  have hlow : 2 * (n : ℚ) ≤ (2 * r + 1) * 2 ^ k := by exact_mod_cast hlow
  have hhigh : 2 * (r : ℚ) * 2 ^ k ≤ 2 * n + 2 ^ k := by exact_mod_cast hhigh
  rcases hlog with h | ⟨-, rfl⟩
  · obtain ⟨h₁, h₂⟩ := hlead h
    have h₁ : 2 ^ 52 * 2 ^ k ≤ (n : ℚ) := by exact_mod_cast h₁
    have h₂ : 2 ^ 52 * 2 ^ k ≤ (r : ℚ) * 2 ^ k := by
      have : (2 ^ 52 : ℚ) ≤ r := by exact_mod_cast h₂
      gcongr
    constructor <;> linarith
  · -- nothing is lost
    have : r = n := by
      have h₁ := (isShifted_shift n 0).rounded_bounds
      rw [← hr] at h₁
      omega
    subst this
    have : (0 : ℚ) ≤ r := Nat.cast_nonneg r
    constructor <;> linarith

/-- The second shift of a rounding is what the rounded number is read off. -/
theorem roundWithAccuracy_eq {spec : Format} {s : Sign} {n : ℕ} {e t q' : ℤ} {a : Accuracy}
    {em em' : ExtendedMantissa} (h : shiftToTargetExponent spec n e a = (em, t))
    (h' : shiftToTargetExponent spec em.roundedMantissa t .exact = (em', q'))
    (hz : em'.mantissa ≠ 0) :
    roundWithAccuracy spec s n e a = .finite s em'.mantissa q' (Nat.pos_of_ne_zero hz) := by
  unfold roundWithAccuracy
  rw [h]
  dsimp only
  rw [h']
  exact dif_neg hz

/-- **Rounding to 53 places** changes a number by a factor of at most `slack`. -/
theorem round_spec (s : Sign) {m : ℕ} {e : ℤ} (hm : 0 < m) (he : -1074 ≤ e) :
    ∃ m' q' h, UnpackedFloat.round .binary64 s m e = .finite s m' q' h ∧ IsSignificand m' q' ∧
      (m' : ℚ) * 2 ^ q' ≤ slack * (m * 2 ^ e) ∧ (m : ℚ) * 2 ^ e ≤ slack * (m' * 2 ^ q') := by
  -- the last place of the result, and a significand that reaches down to it
  obtain ⟨t, ht⟩ : ∃ t, t = max ((m.log2 : ℤ) + e - 52) (-1074) := ⟨_, rfl⟩
  obtain ⟨d, hd⟩ : ∃ d, d = (e - t).toNat := ⟨_, rfl⟩
  obtain ⟨n, hn⟩ : ∃ n, n = m <<< d := ⟨_, rfl⟩
  have hn0 : n ≠ 0 := by
    rw [hn, Nat.shiftLeft_eq]
    exact Nat.mul_ne_zero hm.ne' (Nat.two_pow_pos d).ne'
  have hvalue : (n : ℚ) * 2 ^ (e - d) = m * 2 ^ e := by
    rw [hn, Nat.shiftLeft_eq, zpow_sub₀ two_ne_zero, zpow_natCast]
    push_cast
    field_simp
  have hlog : n.log2 = m.log2 + d := hn ▸ log2_shiftLeft hm.ne' d
  -- the shift to the last place
  obtain ⟨k, hk⟩ : ∃ k, k = (t - (e - d)).toNat := ⟨_, rfl⟩
  have htarget : max ((n.log2 : ℤ) + (e - d) - 52) (-1074) = t := by omega
  have hte : (e - d) + (k : ℕ) = t := by omega
  obtain ⟨r, hr⟩ :
      ∃ r, r = (ExtendedMantissa.ofMantissaAndAccuracy n .exact >>> k).roundedMantissa := ⟨_, rfl⟩
  obtain ⟨hle, hlead, hup, hdown⟩ := rounded_spec hn0 hr (by omega)
  obtain ⟨m', q', hm', hq', hsig, hv⟩ := shift_carry (q := t) hle (by omega)
    (by by_cases h : n.log2 = 52 + k
        · exact Or.inr (hlead h)
        · exact Or.inl (by omega))
  have hfirst : shiftToTargetExponent .binary64 n (e - d) .exact =
      (ExtendedMantissa.ofMantissaAndAccuracy n .exact >>> k, t) := by
    simp only [shiftToTargetExponent, shiftToExponent, targetExponent_eq, htarget, ← hk, hte]
  obtain ⟨em, hsecond⟩ : ∃ em, shiftToTargetExponent .binary64 r t .exact = (em, q') :=
    ⟨_, Prod.ext rfl hq'⟩
  obtain rfl : em.mantissa = m' := by rw [hsecond] at hm'; exact hm'
  have hdecrease : UnpackedFloat.round .binary64 s m e =
      roundWithAccuracy .binary64 s n (e - d) .exact := by
    unfold UnpackedFloat.round
    simp only [targetExponent_eq, ← ht, decreaseExponent, ← hd, ← hn]
  have hvalue' : (em.mantissa : ℚ) * 2 ^ q' = r * 2 ^ k * 2 ^ (e - d) := by
    rw [hv, ← hte, zpow_add_natCast, mul_assoc]
  have hp : (0 : ℚ) < 2 ^ (e - (d : ℤ)) := by positivity
  have hz : em.mantissa ≠ 0 := by
    intro h0
    rw [h0, Nat.cast_zero, zero_mul, eq_comm, mul_eq_zero, or_iff_left hp.ne'] at hvalue'
    rw [hvalue', mul_zero, ← Nat.cast_zero, Nat.cast_le] at hdown
    omega
  refine ⟨em.mantissa, q', Nat.pos_of_ne_zero hz,
    hdecrease.trans (roundWithAccuracy_eq hfirst (hr ▸ hsecond) hz), hsig, ?_, ?_⟩
  · rw [hvalue', ← hvalue, ← mul_assoc]
    exact mul_le_mul_of_nonneg_right hup hp.le
  · rw [hvalue', ← hvalue, ← mul_assoc]
    exact mul_le_mul_of_nonneg_right hdown hp.le

/-! ## Packing and unpacking -/

/-- Neither an infinity nor what is no number. -/
def Double.isFinite : Double → Bool
  | .finite .. => true
  | _ => false

/-- The double that an unpacked number stands for. -/
def Double.ofUnpacked : UnpackedFloat → Double
  | .notANumber => .nan
  | .infinity s => .infinite (s == .negative)
  | .zero s => .finite (s == .negative) 0 (-1074)
  | .finite s m q _ => .finite (s == .negative) m q

/-- What unpacking gives, infinities and what is no number apart. -/
def IsUnpacked : UnpackedFloat → Prop
  | .zero _ => True
  | .finite _ m q _ => IsSignificand m q ∧ q ≤ topExponent
  | _ => False

theorem ofUnpacked_finite (s : Sign) {m : ℕ} (q : ℤ) (hm : 0 < m) :
    Double.ofUnpacked (.finite s m q hm) = .finite (s == .negative) m q := rfl

theorem isNegative_unpackSign (b : BitVec Format.binary64.numBits) :
    (Sign.ofBitVec (unpackSign b) == .negative) =
      (b.toNat / signBit % 2 == 1) := by
  have h := toNat_unpackSign (b := b)
  have hs : signBit = 2 ^ 63 := rfl
  rw [hs, ← h]
  generalize unpackSign b = v
  revert v
  decide

/-- A pattern stands for what it is unpacked to. -/
theorem ofBits_toNat (b : BitVec Format.binary64.numBits) :
    Double.ofBits b.toNat = .ofUnpacked (UnpackedFloat.unpack .binary64 b) := by
  have hm := toNat_unpackMantissa (b := b)
  have he := toNat_unpackExponent (b := b)
  have hneg := isNegative_unpackSign b
  have hone := toNat_one_append (b := b)
  have hbit : exponentBit = 2 ^ 52 := rfl
  have h2048 : 2048 = 2 ^ 11 := rfl
  have hu := unpacksTo_unpack b
  unfold Double.ofBits
  dsimp only
  rw [← hneg, hbit, h2048, ← hm, ← he]
  generalize UnpackedFloat.unpack .binary64 b = u at hu
  cases hu with
  | infinity h h0 => rw [h, h0]; rfl
  | notANumber h h0 =>
    rw [h, if_pos (by decide), if_neg fun hf => h0 (BitVec.eq_of_toNat_eq (hf.trans rfl))]
    rfl
  | zero h h0 => rw [h, h0]; rfl
  | subnormal h h0 => rw [h]; rfl
  | normal h htop h0 =>
    rw [if_neg htop.ne, if_neg fun hf => h (BitVec.eq_of_toNat_eq (hf.trans rfl)),
      ofUnpacked_finite, hone]

theorem isUnpacked_unpack {b : BitVec Format.binary64.numBits}
    (h : (Double.ofUnpacked (UnpackedFloat.unpack .binary64 b)).isFinite) :
    IsUnpacked (UnpackedFloat.unpack .binary64 b) := by
  have hlt : (unpackMantissa b).toNat < 2 ^ 52 := (unpackMantissa b).isLt
  have hone := toNat_one_append (b := b)
  have htop : topExponent = 971 := rfl
  have hu := unpacksTo_unpack b
  generalize UnpackedFloat.unpack .binary64 b = u at h hu
  cases hu with
  | infinity he hm => cases h
  | notANumber he hm => cases h
  | zero he hm => trivial
  | subnormal he hm => exact ⟨⟨by omega, le_rfl, Or.inl rfl⟩, by omega⟩
  | normal he hle hm =>
    have hne : (unpackExponent b).toNat ≠ 0 := fun h0 => he (BitVec.eq_of_toNat_eq h0)
    exact ⟨⟨by omega, by omega, Or.inr (by omega)⟩, by omega⟩

/-- The double that an unpacked number is packed as. -/
def Double.packed (u : UnpackedFloat) : Double := .ofBits (UnpackedFloat.pack .binary64 u).toNat

/-- Packing keeps a number with 53 places, if it is not too large. -/
theorem packed_finite (s : Sign) {m : ℕ} {q : ℤ} (hm : 0 < m) (h : IsSignificand m q) :
    Double.packed (.finite s m q hm) =
      if q ≤ topExponent then .finite (s == .negative) m q else .infinite (s == .negative) := by
  have htop : topExponent = 971 := rfl
  have hbit : exponentBit = 2 ^ 52 := rfl
  have hsign : s.toBitVec.toNat * 2 ^ 63 = signBits (s == .negative) := by cases s <;> rfl
  have hfields (e : BitVec 11) (f : BitVec 52) : (packComponents .binary64 s e f).toNat =
      f.toNat + e.toNat * exponentBit + signBits (s == .negative) := by
    rw [toNat_packComponents, hsign, hbit]
    ring
  obtain ⟨hlt, hlow, hlead⟩ := h
  unfold Double.packed
  by_cases hsub : m < 2 ^ 52
  · obtain rfl : q = -1074 := hlead.resolve_right (not_le.2 hsub)
    rw [pack_subnormal s hm hsub, hfields, BitVec.toNat_ofNat, Nat.mod_eq_of_lt hsub,
      if_pos (by decide)]
    exact ofBits_fields _ (by decide) hsub
  · have hle := not_lt.1 hsub
    by_cases hq : q ≤ topExponent
    · rw [if_pos hq]
      obtain ⟨e, rfl⟩ : ∃ e : ℕ, q = (e : ℤ) - 1075 := ⟨(q + 1075).toNat, by omega⟩
      have hmod : m % 2 ^ 52 = m - 2 ^ 52 := by
        rw [Nat.mod_eq_sub_mod hle, Nat.mod_eq_of_lt (by omega)]
      rw [pack_normal s hm hle hlt (by omega), hfields, BitVec.toNat_ofNat, BitVec.toNat_ofNat,
        hmod, Nat.mod_eq_of_lt (by omega : e < 2 ^ 11),
        ofBits_fields _ (by omega) (by rw [hbit]; omega), if_neg (by omega), if_neg (by omega),
        hbit, Nat.add_sub_cancel' hle]
    · rw [if_neg hq]
      have hinf : UnpackedFloat.pack .binary64 (.finite s m q hm) =
          packComponents .binary64 s (-1) 0 := by
        have hbias : (Format.binary64.exponentBias : ℤ) = 1023 := rfl
        unfold UnpackedFloat.pack
        simp only [hbias]
        rw [if_pos (by omega)]
        rfl
      rw [hinf, hfields]
      exact ofBits_fields _ (by decide) (by decide)

end PrimaryEnergy.Decimal
