/-
  Arithmetic of doubles, up to rounding.

  Every double that is a number stands for an exact one (`exactValue`); an infinity counts as the
  power of two that follows the largest double.  `slack` is the factor by which one rounding
  changes a number at most.

  * `isRounding_add` and `isRounding_sub`: the sum and the difference of finite doubles are
    roundings of the exact ones;
  * `nonneg_iff`, `lt_zero_iff` and `beq_zero_iff`: comparisons with zero are those of the exact
    numbers;
  * `add_of_nonneg` and `isExcess_clamp_sub`: sums of what is not negative, and what is left of
    one double above another, infinities included.
-/
import PrimaryEnergy.Proofs.Decimal.Unpacked
import PrimaryEnergy.Series.Pointwise

namespace PrimaryEnergy.Decimal

open Float.Model Float.Model.UnpackedFloat

/-! ## What doubles stand for -/

/-- The power of two that follows the largest double. -/
def overflowBound : ℚ := 2 ^ 53 * 2 ^ topExponent

theorem overflowBound_pos : 0 < overflowBound := by unfold overflowBound; positivity

/-- A number with a sign. -/
def withSign (negative : Bool) (x : ℚ) : ℚ := if negative then -x else x

@[simp] theorem abs_withSign (negative : Bool) (x : ℚ) : |withSign negative x| = |x| := by
  cases negative
  · rfl
  · exact abs_neg x

theorem withSign_mul_withSign (negative : Bool) (x y : ℚ) :
    withSign negative x * withSign negative y = x * y := by
  cases negative
  · rfl
  · exact neg_mul_neg x y

namespace Double

/-- The number that a double stands for.  An infinity counts as the power of two that follows the
    largest double, as it does in rounding. -/
def value : Double → ℚ
  | .nan => 0
  | .infinite negative => withSign negative overflowBound
  | .finite negative m q => withSign negative (m * 2 ^ q)

theorem value_zero (negative : Bool) (q : ℤ) : (Double.finite negative 0 q).value = 0 := by
  cases negative <;> simp [value, withSign]

end Double

/-! ## Sums and differences -/

theorem one_le_slack : 1 ≤ slack := by unfold slack; norm_num

theorem slack_nonneg : 0 ≤ slack := zero_le_one.trans one_le_slack

theorem slack_pow_pos (n : ℕ) : 0 < slack ^ n := pow_pos (zero_lt_one.trans_le one_le_slack) n

theorem slack_pow_nonneg (n : ℕ) : 0 ≤ slack ^ n := (slack_pow_pos n).le

theorem slack_pow_le {m n : ℕ} (h : m ≤ n) : slack ^ m ≤ slack ^ n :=
  pow_le_pow_right₀ one_le_slack h

theorem le_slack_mul {x : ℚ} (h : 0 ≤ x) : x ≤ slack * x := le_mul_of_one_le_left h one_le_slack

theorem le_slack_pow_mul {x : ℚ} (h : 0 ≤ x) (n : ℕ) : x ≤ slack ^ n * x :=
  le_mul_of_one_le_left h (one_le_pow₀ one_le_slack)

/-- A double that an exact result may be rounded to. -/
structure IsRounding (z : ℚ) (d : Double) : Prop where
  ne_nan : d ≠ .nan
  /-- The sign stays, unless the number is lost. -/
  sign : 0 ≤ z * d.value
  le : |d.value| ≤ slack * |z|
  ge : d.isFinite → |z| ≤ slack * |d.value|

namespace IsRounding

variable {z : ℚ} {d : Double}

theorem of_value_eq (hd : d.isFinite) (h : d.value = z) : IsRounding z d := by
  subst h
  refine ⟨?_, mul_self_nonneg _, le_slack_mul (abs_nonneg _), fun _ => le_slack_mul (abs_nonneg _)⟩
  rintro rfl
  cases hd

theorem packed_zero (s : Sign) : IsRounding 0 (.packed (.zero s)) := by
  have h : Double.packed (.zero s) = .finite (s == .negative) 0 (-1074) := by cases s <;> rfl
  rw [h]
  exact of_value_eq rfl (Double.value_zero _ _)

/-- What has been rounded to 53 places is packed as a double or as an infinity. -/
theorem packed_finite (s : Sign) {m : ℕ} {q : ℤ} (hm : 0 < m) (h : IsSignificand m q) {v : ℚ}
    (hv : 0 ≤ v) (hup : (m : ℚ) * 2 ^ q ≤ slack * v) (hdown : v ≤ slack * (m * 2 ^ q)) :
    IsRounding (withSign (s == .negative) v) (.packed (.finite s m q hm)) := by
  have hnn : (0 : ℚ) ≤ m * 2 ^ q := by positivity
  rw [Decimal.packed_finite s hm h]
  split_ifs with hq
  · have hvalue : (Double.finite (s == .negative) m q).value =
        withSign (s == .negative) (m * 2 ^ q) := rfl
    refine ⟨nofun, ?_, ?_, fun _ => ?_⟩ <;> rw [hvalue]
    · rw [withSign_mul_withSign]
      exact mul_nonneg hv hnn
    · rwa [abs_withSign, abs_withSign, abs_of_nonneg hnn, abs_of_nonneg hv]
    · rwa [abs_withSign, abs_withSign, abs_of_nonneg hnn, abs_of_nonneg hv]
  · have hvalue : (Double.infinite (s == .negative)).value =
        withSign (s == .negative) overflowBound := rfl
    have hover := overflowBound_pos.le
    have hle : overflowBound ≤ m * 2 ^ q := by
      have htop : topExponent = 971 := rfl
      have hlead : (2 ^ 52 : ℚ) ≤ m := by
        exact_mod_cast h.lead.resolve_left (by omega)
      calc overflowBound = 2 ^ (topExponent + (53 : ℕ)) := (zpow_add_natCast _ 53).symm
        _ ≤ 2 ^ (q + (52 : ℕ)) := zpow_le_zpow_right₀ one_le_two (by omega)
        _ = 2 ^ 52 * 2 ^ q := zpow_add_natCast q 52
        _ ≤ m * 2 ^ q := by gcongr
    refine ⟨nofun, ?_, ?_, nofun⟩ <;> rw [hvalue]
    · rw [withSign_mul_withSign]
      exact mul_nonneg hv hover
    · rw [abs_withSign, abs_withSign, abs_of_nonneg hover, abs_of_nonneg hv]
      exact hle.trans hup

theorem packed_normalize (z : ℤ) {e : ℤ} (he : -1074 ≤ e) :
    IsRounding (z * 2 ^ e) (.packed (UnpackedFloat.normalize .binary64 z e .positive)) := by
  unfold UnpackedFloat.normalize
  rcases lt_trichotomy z 0 with h | rfl | h
  · obtain ⟨n, rfl⟩ : ∃ n : ℕ, z = -n := ⟨(-z).toNat, by omega⟩
    obtain ⟨m, q, hm, hr, hsig, hup, hdown⟩ := round_spec .negative (m := n) (by omega) he
    have hz : ((-n : ℤ) : ℚ) * 2 ^ e = withSign true (n * 2 ^ e) := by
      rw [Int.cast_neg, neg_mul, Int.cast_natCast]; rfl
    rw [compare_lt_iff_lt.2 h, hz]
    dsimp only
    rw [neg_neg, Int.toNat_natCast, hr]
    exact packed_finite .negative hm hsig (by positivity) hup hdown
  · rw [compare_eq_iff_eq.2 rfl, Int.cast_zero, zero_mul]
    exact packed_zero .positive
  · obtain ⟨n, rfl⟩ : ∃ n : ℕ, z = n := ⟨z.toNat, by omega⟩
    obtain ⟨m, q, hm, hr, hsig, hup, hdown⟩ := round_spec .positive (m := n) (by omega) he
    rw [compare_gt_iff_gt.2 h, Int.cast_natCast]
    dsimp only
    rw [Int.toNat_natCast, hr]
    exact packed_finite .positive hm hsig (by positivity) hup hdown

end IsRounding

/-- A significand moved to a smaller exponent. -/
theorem apply_decreaseExponent (s : Sign) (m : ℕ) {e t : ℤ} (h : t ≤ e) :
    (s.apply (decreaseExponent m e t).1 : ℚ) * 2 ^ t = withSign (s == .negative) (m * 2 ^ e) := by
  have hm : ((decreaseExponent m e t).1 : ℚ) * 2 ^ t = m * 2 ^ e := by
    have he : e = t + ((e - t).toNat : ℕ) := by omega
    rw [decreaseExponent, Nat.shiftLeft_eq]
    conv_rhs => rw [he, zpow_add_natCast]
    push_cast
    ring
  cases s
  · rw [← hm, Sign.apply, Int.cast_neg, neg_mul]; rfl
  · rw [← hm]; rfl

theorem ofUnpacked_zero_value (s : Sign) : (Double.ofUnpacked (.zero s)).value = 0 :=
  Double.value_zero _ _

theorem IsUnpacked.isRounding {u : UnpackedFloat} (h : IsUnpacked u) :
    IsRounding (Double.ofUnpacked u).value (.packed u) := by
  cases u with
  | infinity => cases h
  | notANumber => cases h
  | zero s =>
    rw [ofUnpacked_zero_value]
    exact .packed_zero s
  | finite s m q hm =>
    have hnn : (0 : ℚ) ≤ m * 2 ^ q := by positivity
    exact .packed_finite s hm h.1 hnn (le_slack_mul hnn) (le_slack_mul hnn)

/-- The unpacked sum of unpacked numbers is a rounding of their sum. -/
theorem IsUnpacked.isRounding_add {u v : UnpackedFloat} (hu : IsUnpacked u) (hv : IsUnpacked v) :
    IsRounding ((Double.ofUnpacked u).value + (Double.ofUnpacked v).value)
      (.packed (UnpackedFloat.add .binary64 u v)) := by
  cases u with
  | infinity => cases hu
  | notANumber => cases hu
  | zero s =>
    rw [ofUnpacked_zero_value, zero_add]
    cases v with
    | infinity => cases hv
    | notANumber => cases hv
    | zero s' =>
      rw [ofUnpacked_zero_value]
      cases s <;> cases s' <;> exact .packed_zero _
    | finite s' m' q' hm' => exact hv.isRounding
  | finite s m q hm =>
    cases v with
    | infinity => cases hv
    | notANumber => cases hv
    | zero s' =>
      rw [ofUnpacked_zero_value, add_zero]
      exact hu.isRounding
    | finite s' m' q' hm' =>
      have hlow : -1074 ≤ min q q' := le_min hu.1.low hv.1.low
      have h := IsRounding.packed_normalize (s.apply (decreaseExponent m q (min q q')).1 +
        s'.apply (decreaseExponent m' q' (min q q')).1) hlow
      rw [Int.cast_add, add_mul, apply_decreaseExponent s m (min_le_left _ _),
        apply_decreaseExponent s' m' (min_le_right _ _)] at h
      exact h

/-- A difference is a sum. -/
theorem unpackedSub_eq (f : Format) (u v : UnpackedFloat) :
    UnpackedFloat.sub f u v = UnpackedFloat.add f u v.neg := by
  cases u <;> cases v <;> try rfl
  case finite s m q hm s' m' q' hm' =>
    cases s'
    · exact congrArg (UnpackedFloat.normalize f · _ .positive) (sub_neg_eq_add _ _)
    · exact congrArg (UnpackedFloat.normalize f · _ .positive) (sub_eq_add_neg _ _)

theorem IsUnpacked.neg {u : UnpackedFloat} (h : IsUnpacked u) : IsUnpacked u.neg := by
  cases u <;> exact h

theorem withSign_neg (s : Sign) (x : ℚ) :
    withSign (-s == .negative) x = -withSign (s == .negative) x := by
  cases s
  · exact (neg_neg x).symm
  · rfl

theorem value_neg (u : UnpackedFloat) :
    (Double.ofUnpacked u.neg).value = -(Double.ofUnpacked u).value := by
  cases u with
  | notANumber => exact neg_zero.symm
  | zero s =>
    rw [ofUnpacked_zero_value, neg_zero]
    exact ofUnpacked_zero_value (-s)
  | infinity s => exact withSign_neg s _
  | finite s m q hm => exact withSign_neg s _

/-! ## Doubles -/

/-- What a double is unpacked to. -/
def unpacked (x : Float) : UnpackedFloat := UnpackedFloat.unpack .binary64 x.toBits.toBitVec

theorem ofFloat_eq (x : Float) : Double.ofFloat x = .ofUnpacked (unpacked x) := ofBits_toNat _

/-- The number that a double stands for. -/
def exactValue (x : Float) : ℚ := (Double.ofFloat x).value

/-- A number or an infinity. -/
def IsDefined (x : Float) : Prop := Double.ofFloat x ≠ .nan

/-- Neither an infinity nor what is no number. -/
def IsFinite (x : Float) : Prop := (Double.ofFloat x).isFinite

theorem exactValue_zero : exactValue 0 = 0 := Double.value_zero _ _

theorem isFinite_zero : IsFinite 0 := rfl

variable {x y : Float}

theorem IsFinite.isDefined (h : IsFinite x) : IsDefined x := by
  intro hn
  rw [IsFinite, hn] at h
  cases h

theorem isUnpacked_unpacked (h : IsFinite x) : IsUnpacked (unpacked x) := by
  rw [IsFinite, ofFloat_eq] at h
  exact isUnpacked_unpack h

theorem isRounding_add (hx : IsFinite x) (hy : IsFinite y) :
    IsRounding (exactValue x + exactValue y) (Double.ofFloat (x + y)) := by
  rw [exactValue, exactValue, ofFloat_eq x, ofFloat_eq y]
  exact (isUnpacked_unpacked hx).isRounding_add (isUnpacked_unpacked hy)

theorem isRounding_sub (hx : IsFinite x) (hy : IsFinite y) :
    IsRounding (exactValue x - exactValue y) (Double.ofFloat (x - y)) := by
  have hsub : Double.ofFloat (x - y) =
      .packed (UnpackedFloat.sub .binary64 (unpacked x) (unpacked y)) := rfl
  rw [hsub, unpackedSub_eq, exactValue, exactValue, ofFloat_eq x, ofFloat_eq y, sub_eq_add_neg,
    ← value_neg]
  exact (isUnpacked_unpacked hx).isRounding_add (isUnpacked_unpacked hy).neg

/-- How a double compares with zero. -/
theorem compare_zero (x : Float) :
    (Double.ofFloat x = .nan ∧ (unpacked x).compare (.zero .positive) = none) ∨
      IsDefined x ∧ (unpacked x).compare (.zero .positive) = some (compare (exactValue x) 0) := by
  rw [IsDefined, exactValue, ofFloat_eq]
  have hover := overflowBound_pos
  cases unpacked x with
  | notANumber => exact Or.inl ⟨rfl, rfl⟩
  | zero s =>
    refine Or.inr ⟨nofun, ?_⟩
    rw [ofUnpacked_zero_value, compare_eq_iff_eq.2 rfl]
    rfl
  | infinity s =>
    refine Or.inr ⟨nofun, ?_⟩
    cases s
    · rw [compare_lt_iff_lt.2]
      · rfl
      · exact neg_lt_zero.2 hover
    · rw [compare_gt_iff_gt.2]
      · rfl
      · exact hover
  | finite s m q hm =>
    have hpos : (0 : ℚ) < m * 2 ^ q := by positivity
    refine Or.inr ⟨nofun, ?_⟩
    cases s
    · rw [compare_lt_iff_lt.2]
      · rfl
      · exact neg_lt_zero.2 hpos
    · rw [compare_gt_iff_gt.2]
      · rfl
      · exact hpos

theorem zero_compare (u : UnpackedFloat) :
    (UnpackedFloat.zero .positive).compare u = (u.compare (.zero .positive)).map .swap := by
  rcases u with s | _ | s | ⟨s, m, q, hm⟩ <;> first | rfl | cases s <;> rfl

theorem lt_zero_iff : x < 0 ↔ IsDefined x ∧ exactValue x < 0 := by
  have h : x < 0 ↔ ((unpacked x).compare (.zero .positive) == some .lt) = true := decide_eq_true_iff
  rcases compare_zero x with ⟨hn, hc⟩ | ⟨hn, hc⟩ <;> rw [h, hc]
  · exact ⟨nofun, fun h => absurd hn h.1⟩
  · rw [beq_iff_eq, Option.some_inj, compare_lt_iff_lt]
    exact (and_iff_right hn).symm

theorem nonneg_iff : 0 ≤ x ↔ IsDefined x ∧ 0 ≤ exactValue x := by
  have h : 0 ≤ x ↔ ((UnpackedFloat.zero .positive).compare (unpacked x)).any (·.isLE) = true :=
    decide_eq_true_iff
  rcases compare_zero x with ⟨hn, hc⟩ | ⟨hn, hc⟩ <;> rw [h, zero_compare, hc]
  · exact ⟨nofun, fun h => absurd hn h.1⟩
  · rw [and_iff_right hn, Option.map_some, Option.any_some]
    rw [Ordering.isLE_swap, Ordering.isGE_iff_ne_lt]
    exact compare_ge_iff_ge

theorem beq_zero_iff : (x == 0) = true ↔ IsDefined x ∧ exactValue x = 0 := by
  have h : (x == 0) = ((unpacked x).compare (.zero .positive) == some .eq) := rfl
  rcases compare_zero x with ⟨hn, hc⟩ | ⟨hn, hc⟩ <;> rw [h, hc]
  · exact ⟨nofun, fun h => absurd hn h.1⟩
  · rw [beq_iff_eq, Option.some_inj, compare_eq_iff_eq]
    exact (and_iff_right hn).symm

/-- What a double is whose value is not negative. -/
theorem finite_or_of_nonneg (h : 0 ≤ exactValue x) :
    IsFinite x ∨ unpacked x = .infinity .positive ∨ unpacked x = .notANumber := by
  rw [exactValue, ofFloat_eq] at h
  rw [IsFinite, ofFloat_eq]
  cases hu : unpacked x with
  | notANumber => exact Or.inr (Or.inr rfl)
  | zero s => exact Or.inl rfl
  | finite s m q hm => exact Or.inl rfl
  | infinity s =>
    cases s with
    | positive => exact Or.inr (Or.inl rfl)
    | negative =>
      rw [hu] at h
      exact absurd h (not_le.2 (neg_lt_zero.2 overflowBound_pos))

theorem ofFloat_of_unpacked {u : UnpackedFloat} (h : unpacked x = u) :
    Double.ofFloat x = .ofUnpacked u := by rw [ofFloat_eq, h]

theorem not_isFinite_of_infinite (h : unpacked x = .infinity .positive) : ¬ IsFinite x := by
  rw [IsFinite, ofFloat_of_unpacked h]
  nofun

/-- A number below the next power of two is no infinity. -/
theorem isFinite_of_lt_overflowBound (hd : IsDefined x) (h0 : 0 ≤ exactValue x)
    (h : exactValue x < overflowBound) : IsFinite x := by
  rcases finite_or_of_nonneg h0 with hf | hi | hn
  · exact hf
  · rw [exactValue, ofFloat_of_unpacked hi] at h
    exact absurd h (lt_irrefl _)
  · exact absurd (ofFloat_of_unpacked hn) hd

theorem ofFloat_add {u v w : UnpackedFloat} (hx : unpacked x = u) (hy : unpacked y = v)
    (h : UnpackedFloat.add .binary64 u v = w) : Double.ofFloat (x + y) = .packed w := by
  rw [← h, ← hx, ← hy]
  rfl

theorem ofFloat_sub {u v w : UnpackedFloat} (hx : unpacked x = u) (hy : unpacked y = v)
    (h : UnpackedFloat.sub .binary64 u v = w) : Double.ofFloat (x - y) = .packed w := by
  rw [← h, ← hx, ← hy]
  rfl

theorem add_special {u : UnpackedFloat} (hu : IsUnpacked u) :
    UnpackedFloat.add .binary64 u .notANumber = .notANumber ∧
      UnpackedFloat.add .binary64 u (.infinity .positive) = .infinity .positive ∧
      UnpackedFloat.add .binary64 (.infinity .positive) u = .infinity .positive := by
  cases u <;> first | exact ⟨rfl, rfl, rfl⟩ | cases hu

/-- The sum of numbers that are not negative, one of which is no double, is not one, either. -/
theorem add_of_not_isFinite (hx : 0 ≤ exactValue x) (hy : 0 ≤ exactValue y)
    (h : ¬ (IsFinite x ∧ IsFinite y)) :
    Double.ofFloat (x + y) = .nan ∧ (Double.ofFloat x = .nan ∨ Double.ofFloat y = .nan) ∨
      Double.ofFloat (x + y) = .infinite false ∧ overflowBound ≤ exactValue x + exactValue y := by
  have hvalue {z : Float} (hz : unpacked z = .infinity .positive) :
      exactValue z = overflowBound := by
    rw [exactValue, ofFloat_of_unpacked hz]; rfl
  rcases finite_or_of_nonneg hx with hxf | hxi | hxn
  · obtain ⟨hn, hi, -⟩ := add_special (isUnpacked_unpacked hxf)
    rcases finite_or_of_nonneg hy with hyf | hyi | hyn
    · exact absurd ⟨hxf, hyf⟩ h
    · refine Or.inr ⟨ofFloat_add rfl hyi hi, ?_⟩
      rw [hvalue hyi]
      exact le_add_of_nonneg_left hx
    · exact Or.inl ⟨ofFloat_add rfl hyn hn, Or.inr (ofFloat_of_unpacked hyn)⟩
  · rcases finite_or_of_nonneg hy with hyf | hyi | hyn
    · refine Or.inr ⟨ofFloat_add hxi rfl (add_special (isUnpacked_unpacked hyf)).2.2, ?_⟩
      rw [hvalue hxi]
      exact le_add_of_nonneg_right hy
    · refine Or.inr ⟨ofFloat_add hxi hyi rfl, ?_⟩
      rw [hvalue hxi]
      exact le_add_of_nonneg_right hy
    · exact Or.inl ⟨ofFloat_add hxi hyn rfl, Or.inr (ofFloat_of_unpacked hyn)⟩
  · exact Or.inl ⟨ofFloat_add (w := .notANumber) hxn rfl rfl, Or.inl (ofFloat_of_unpacked hxn)⟩

/-- **The sum of doubles that are not negative** is their exact sum up to `slack`.  It is finite
    only if they are. -/
theorem add_of_nonneg (hx : 0 ≤ exactValue x) (hy : 0 ≤ exactValue y) :
    0 ≤ exactValue (x + y) ∧ (IsDefined x → IsDefined y → IsDefined (x + y)) ∧
      exactValue (x + y) ≤ slack * (exactValue x + exactValue y) ∧
      (IsFinite (x + y) → IsFinite x ∧ IsFinite y ∧
        exactValue x + exactValue y ≤ slack * exactValue (x + y)) := by
  have hxy := add_nonneg hx hy
  by_cases hf : IsFinite x ∧ IsFinite y
  · obtain ⟨hn, hsign, hle, hge⟩ := isRounding_add hf.1 hf.2
    rw [← exactValue, abs_of_nonneg hxy] at hle hge
    have hv : 0 ≤ exactValue (x + y) := by
      rcases hxy.eq_or_lt with h0 | hpos
      · rw [← h0, mul_zero, abs_nonpos_iff] at hle
        exact hle.ge
      · exact nonneg_of_mul_nonneg_right hsign hpos
    rw [abs_of_nonneg hv] at hle hge
    exact ⟨hv, fun _ _ => hn, hle, fun h => ⟨hf.1, hf.2, hge h⟩⟩
  · rcases add_of_not_isFinite hx hy hf with ⟨hsum, hnan⟩ | ⟨hsum, hover⟩
    · have hv : exactValue (x + y) = 0 := by rw [exactValue, hsum]; rfl
      refine ⟨hv.ge, fun hx hy => absurd hnan (not_or.2 ⟨hx, hy⟩), ?_, ?_⟩
      · rw [hv]
        exact mul_nonneg slack_nonneg hxy
      · intro h
        rw [IsFinite, hsum] at h
        cases h
    · have hv : exactValue (x + y) = overflowBound := by rw [exactValue, hsum]; rfl
      refine ⟨hv ▸ overflowBound_pos.le, fun _ _ h => ?_, ?_, ?_⟩
      · rw [hsum] at h
        cases h
      · rw [hv]
        exact hover.trans (le_slack_mul hxy)
      · intro h
        rw [IsFinite, hsum] at h
        cases h

/-- A finite double stays away from the next power of two, also when it is rounded. -/
theorem slack_mul_lt_overflowBound (h : IsFinite x) : slack * exactValue x < overflowBound := by
  cases hd : Double.ofFloat x with
  | nan => rw [IsFinite, hd] at h; cases h
  | infinite => rw [IsFinite, hd] at h; cases h
  | finite negative m q =>
    have hnn : (0 : ℚ) ≤ m * 2 ^ q := by positivity
    have hpos : (0 : ℚ) < 2 ^ topExponent := by positivity
    obtain ⟨hm, -, hq⟩ := ofFloat_bounds hd
    have hm : (m : ℚ) ≤ 2 ^ 53 - 1 := by
      have : ((m + 1 : ℕ) : ℚ) ≤ (2 ^ 53 : ℕ) := by exact_mod_cast hm
      push_cast at this; linarith
    have hq : (2 : ℚ) ^ q ≤ 2 ^ topExponent := zpow_le_zpow_right₀ one_le_two hq
    have hv : exactValue x ≤ (2 ^ 53 - 1) * 2 ^ topExponent := by
      rw [exactValue, hd]
      refine (le_abs_self _).trans ?_
      rw [Double.value, abs_withSign, abs_of_nonneg hnn]
      exact mul_le_mul hm hq (zpow_pos two_pos q).le (by norm_num)
    have hslack : slack * (2 ^ 53 - 1) < 2 ^ 53 := by unfold slack; norm_num
    calc slack * exactValue x ≤ slack * ((2 ^ 53 - 1) * 2 ^ topExponent) :=
          mul_le_mul_of_nonneg_left hv slack_nonneg
      _ = slack * (2 ^ 53 - 1) * 2 ^ topExponent := (mul_assoc _ _ _).symm
      _ < overflowBound := mul_lt_mul_of_pos_right hslack hpos

/-! ## What is left of one double above another -/

open Series (clamp)

/-- The double `e` is what is left of `x` above `y`, up to `slack`. -/
structure IsExcess (x y e : Float) : Prop where
  nonneg : 0 ≤ exactValue e
  /-- It is finite if `x` is and `y` is a number, and only then. -/
  isFinite_iff : IsFinite e ↔ IsFinite x ∧ IsDefined y
  le : IsFinite e → exactValue x ≤ exactValue y + slack * exactValue e
  ge : IsFinite e → exactValue e ≠ 0 →
    IsFinite y ∧ exactValue y + exactValue e ≤ slack * exactValue x
  /-- Nothing is left above a number that is as large. -/
  eq_zero : IsFinite e → exactValue x ≤ exactValue y → exactValue e = 0

theorem isExcess_zero (hx : IsFinite x) (hy : IsDefined y) (hle : exactValue x ≤ exactValue y) :
    IsExcess x y 0 := by
  refine ⟨exactValue_zero.ge, iff_of_true isFinite_zero ⟨hx, hy⟩, fun _ => ?_,
    fun _ h => absurd exactValue_zero h, fun _ _ => exactValue_zero⟩
  rwa [exactValue_zero, mul_zero, add_zero]

/-- A double is what is left of itself above zero. -/
theorem isExcess_self_zero (hx : 0 ≤ exactValue x) : IsExcess x 0 x := by
  refine ⟨hx, (and_iff_left isFinite_zero.isDefined).symm, fun _ => ?_,
    fun _ _ => ⟨isFinite_zero, ?_⟩, fun _ h => le_antisymm (h.trans exactValue_zero.le) hx⟩
  all_goals
    rw [exactValue_zero, zero_add]
    exact le_slack_mul hx

/-- What is not finite is left of what is not finite. -/
theorem isExcess_of_special (h : ¬ (IsFinite x ∧ IsDefined y))
    (hs : Double.ofFloat (x - y) = .nan ∨ Double.ofFloat (x - y) = .infinite false) :
    IsExcess x y (clamp (x - y)) := by
  have hneg : ¬ x - y < 0 := fun hlt => by
    obtain ⟨hn, hv⟩ := lt_zero_iff.1 hlt
    rcases hs with hs | hs
    · exact hn hs
    · rw [exactValue, hs] at hv
      exact overflowBound_pos.not_gt hv
  have hf : ¬ IsFinite (x - y) ∧ 0 ≤ exactValue (x - y) := by
    rw [IsFinite, exactValue]
    rcases hs with hs | hs <;> rw [hs]
    · exact ⟨nofun, le_rfl⟩
    · exact ⟨nofun, overflowBound_pos.le⟩
  rw [clamp, if_neg hneg]
  exact ⟨hf.2, iff_of_false hf.1 h, fun h => absurd h hf.1, fun h => absurd h hf.1,
    fun h => absurd h hf.1⟩

/-- The difference of finite doubles is no larger than one of the two. -/
theorem isFinite_sub (hx : IsFinite x) (hy : IsFinite y) (hx0 : 0 ≤ exactValue x)
    (hy0 : 0 ≤ exactValue y) (h0 : 0 ≤ exactValue (x - y)) : IsFinite (x - y) := by
  obtain ⟨hn, -, hle, -⟩ := isRounding_sub hx hy
  rw [← exactValue, abs_of_nonneg h0] at hle
  refine isFinite_of_lt_overflowBound hn h0 (hle.trans_lt ?_)
  have hx' := slack_mul_lt_overflowBound hx
  have hy' := slack_mul_lt_overflowBound hy
  rcases le_total (exactValue y) (exactValue x) with hxy | hxy
  · rw [abs_of_nonneg (sub_nonneg.2 hxy), mul_sub]
    linarith [mul_nonneg slack_nonneg hy0]
  · rw [abs_of_nonpos (sub_nonpos.2 hxy), neg_sub, mul_sub]
    linarith [mul_nonneg slack_nonneg hx0]

/-- What is left of a finite double above another one. -/
theorem isExcess_of_isFinite (hxf : IsFinite x) (hyf : IsFinite y) (hx : 0 ≤ exactValue x)
    (hy : 0 ≤ exactValue y) : IsExcess x y (clamp (x - y)) := by
  obtain ⟨hn, hsign, hle, hge⟩ := isRounding_sub hxf hyf
  rw [← exactValue] at hsign hle hge
  unfold clamp
  split_ifs with hneg
  · refine isExcess_zero hxf hyf.isDefined (sub_nonpos.1 ?_)
    exact nonpos_of_mul_nonneg_left hsign (lt_zero_iff.1 hneg).2
  · have hv : 0 ≤ exactValue (x - y) := not_lt.1 fun h => hneg (lt_zero_iff.2 ⟨hn, h⟩)
    have hf := isFinite_sub hxf hyf hx hy hv
    have hge := hge hf
    rw [abs_of_nonneg hv] at hle hge
    refine ⟨hv, iff_of_true hf ⟨hxf, hyf.isDefined⟩, fun _ => ?_, fun _ h0 => ⟨hyf, ?_⟩,
      fun _ hxy => ?_⟩
    · linarith [le_abs_self (exactValue x - exactValue y)]
    · have hxy : 0 ≤ exactValue x - exactValue y :=
        nonneg_of_mul_nonneg_left hsign (lt_of_le_of_ne hv (Ne.symm h0))
      rw [abs_of_nonneg hxy, mul_sub] at hle
      linarith [le_slack_mul hy]
    · rcases hxy.eq_or_lt with h0 | hlt
      · rw [h0, sub_self, abs_zero, mul_zero] at hle
        exact le_antisymm hle hv
      · exact le_antisymm (nonpos_of_mul_nonneg_right hsign (sub_neg.2 hlt)) hv

theorem sub_special {u : UnpackedFloat} (hu : IsUnpacked u) :
    UnpackedFloat.sub .binary64 u (.infinity .positive) = .infinity .negative ∧
      UnpackedFloat.sub .binary64 (.infinity .positive) u = .infinity .positive := by
  cases u <;> first | exact ⟨rfl, rfl⟩ | cases hu

theorem sub_notANumber (u : UnpackedFloat) :
    UnpackedFloat.sub .binary64 u .notANumber = .notANumber := by
  cases u <;> rfl

/-- **What is left of a double above another one**, none of them negative, infinities included. -/
theorem isExcess_clamp_sub (hx : 0 ≤ exactValue x) (hy : 0 ≤ exactValue y) :
    IsExcess x y (clamp (x - y)) := by
  rcases finite_or_of_nonneg hy with hyf | hyi | hyn
  · rcases finite_or_of_nonneg hx with hxf | hxi | hxn
    · exact isExcess_of_isFinite hxf hyf hx hy
    · refine isExcess_of_special (fun h => not_isFinite_of_infinite hxi h.1) (Or.inr ?_)
      exact ofFloat_sub hxi rfl (sub_special (isUnpacked_unpacked hyf)).2
    · refine isExcess_of_special (fun h => h.1.isDefined (ofFloat_of_unpacked hxn)) (Or.inl ?_)
      exact ofFloat_sub (w := .notANumber) hxn rfl rfl
  · rcases finite_or_of_nonneg hx with hxf | hxi | hxn
    · -- nothing is left above an infinity
      have hsub : Double.ofFloat (x - y) = .infinite true :=
        ofFloat_sub rfl hyi (sub_special (isUnpacked_unpacked hxf)).1
      have hneg : x - y < 0 := lt_zero_iff.2 ⟨by rw [IsDefined, hsub]; nofun,
        by rw [exactValue, hsub]; exact neg_lt_zero.2 overflowBound_pos⟩
      have hyd : IsDefined y := by rw [IsDefined, ofFloat_of_unpacked hyi]; nofun
      have hyv : exactValue y = overflowBound := by
        rw [exactValue, ofFloat_of_unpacked hyi]; rfl
      rw [clamp, if_pos hneg]
      exact isExcess_zero hxf hyd
        (hyv ▸ (le_slack_mul hx).trans (slack_mul_lt_overflowBound hxf).le)
    · refine isExcess_of_special (fun h => not_isFinite_of_infinite hxi h.1) (Or.inl ?_)
      exact ofFloat_sub hxi hyi rfl
    · refine isExcess_of_special (fun h => h.1.isDefined (ofFloat_of_unpacked hxn)) (Or.inl ?_)
      exact ofFloat_sub (w := .notANumber) hxn rfl rfl
  · refine isExcess_of_special (fun h => h.2 (ofFloat_of_unpacked hyn)) (Or.inl ?_)
    exact ofFloat_sub rfl hyn (sub_notANumber _)

/-- Adding to zero changes no number, apart from the sign of zero. -/
theorem zero_add_of_isFinite (hf : IsFinite x) :
    IsFinite (0 + x) ∧ exactValue (0 + x) = exactValue x := by
  have hzero : unpacked 0 = .zero .positive := rfl
  have hu := isUnpacked_unpacked hf
  unfold IsFinite exactValue
  cases hx : unpacked x with
  | infinity => rw [hx] at hu; cases hu
  | notANumber => rw [hx] at hu; cases hu
  | zero s =>
    rw [ofFloat_of_unpacked hx]
    cases s
    all_goals
      rw [ofFloat_add hzero hx rfl]
      exact ⟨rfl, (Double.value_zero _ _).trans (Double.value_zero _ _).symm⟩
  | finite s m q hm =>
    rw [hx] at hu
    have hadd : UnpackedFloat.add .binary64 (.zero .positive) (.finite s m q hm) =
        .finite s m q hm := rfl
    rw [ofFloat_add hzero hx hadd, Decimal.packed_finite s hm hu.1, if_pos hu.2,
      ofFloat_of_unpacked hx]
    exact ⟨rfl, rfl⟩

end PrimaryEnergy.Decimal
