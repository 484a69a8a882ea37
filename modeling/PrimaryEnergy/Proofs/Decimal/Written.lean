/-
  Doubles that are written with decimals and read again.

  A double is rounded to decimal places, and what is read is the double nearest to these.

  * `gridUnits_slack`: unless a quotient is very small, its double is the same up to `slack`;
  * `roundedTo_spec`: what is read is what was written, up to half of the last place and `slack`;
  * `roundedTo_mono`: the order is kept.
-/
import PrimaryEnergy.Proofs.Decimal.Arithmetic
import PrimaryEnergy.Proofs.Decimal.Fixed

namespace PrimaryEnergy.Decimal

section
variable {num den : ℕ}

theorem isNearestEven_zero : IsNearestEven 0 0 := ⟨by norm_num, fun _ => rfl⟩

theorem gridUnits_zero (hden : 0 < den) : gridUnits 0 den = 0 := by
  have h := isNearestEven_gridUnits 0 hden
  rw [Nat.cast_zero, zero_div, zero_div] at h
  exact h.eq isNearestEven_zero

/-- Unless a quotient is very small, it is rounded by a factor of at most `slack`. -/
theorem gridUnits_slack (hden : 0 < den) (h : num = 0 ∨ (2 : ℚ) ^ (-1021 : ℤ) ≤ num / den) :
    (gridUnits num den : ℚ) * 2 ^ gridExponent num den ≤ slack * (num / den) ∧
      (num : ℚ) / den ≤ slack * (gridUnits num den * 2 ^ gridExponent num den) := by
  rcases h with rfl | h
  · rw [gridUnits_zero hden, Nat.cast_zero, zero_div, zero_mul, mul_zero]
    exact ⟨le_rfl, le_rfl⟩
  have hnear := isNearestEven_gridUnits num hden
  obtain ⟨hlow, hlt, hlead⟩ := gridExponent_spec num hden
  have hg : -1074 < gridExponent num den := by
    by_contra hle
    obtain hg : gridExponent num den = -1074 := le_antisymm (not_lt.1 hle) hlow
    rw [hg] at hlt
    exact absurd h (not_le.2 hlt)
  have hr := hlead hg
  have hn := le_gridUnits hden hg
  generalize gridExponent num den = g at *
  generalize gridUnits num den = n at *
  generalize (num : ℚ) / den = r at *
  have hp : (0 : ℚ) < 2 ^ g := by positivity
  have hn : (2 ^ 52 : ℚ) ≤ n := by exact_mod_cast hn
  have hr : (2 : ℚ) ^ 52 * 2 ^ g ≤ r := (zpow_add_natCast g 52).symm.trans_le hr
  have hn' : (2 : ℚ) ^ 52 * 2 ^ g ≤ n * 2 ^ g := mul_le_mul_of_nonneg_right hn hp.le
  have hdist : |r - n * 2 ^ g| ≤ 1 / 2 * 2 ^ g := by
    have := mul_le_mul_of_nonneg_right hnear.near hp.le
    rwa [← abs_of_pos hp, ← abs_mul, abs_of_pos hp, sub_mul, div_mul_cancel₀ _ hp.ne'] at this
  obtain ⟨h₁, h₂⟩ := abs_le.1 hdist
  unfold slack
  constructor <;> linarith

end

/-- Half of the last one of so many decimal places. -/
def halfUnit (places : ℕ) : ℚ := 1 / 2 / 10 ^ places

theorem halfUnit_pos (places : ℕ) : 0 < halfUnit places := by unfold halfUnit; positivity

theorem mul_halfUnit_nonneg (n places : ℕ) : 0 ≤ n * halfUnit places :=
  mul_nonneg (Nat.cast_nonneg n) (halfUnit_pos places).le

section
variable {places n : ℕ}

/-- A number rounded to decimal places is at most half of the last one away. -/
theorem dist_le_halfUnit {v : ℚ} (h : IsNearestEven (v * 10 ^ places) n) :
    |v - (n : ℚ) / (10 ^ places : ℕ)| ≤ halfUnit places := by
  have hp : (0 : ℚ) < 10 ^ places := by positivity
  have he : v * 10 ^ places - n = (v - (n : ℚ) / (10 ^ places : ℕ)) * 10 ^ places := by
    rw [Nat.cast_pow, Nat.cast_ofNat, sub_mul, div_mul_cancel₀ _ hp.ne']
  have hnear := h.near
  rw [he, abs_mul, abs_of_pos hp] at hnear
  rwa [halfUnit, le_div_iff₀ hp]

/-- With that many places, nothing is written that is too small for a full significand. -/
theorem le_div_ten_pow (hp : places ≤ 255) (hn : n ≠ 0) :
    (2 : ℚ) ^ (-1021 : ℤ) ≤ (n : ℚ) / (10 ^ places : ℕ) := by
  have h1 : (1 : ℚ) ≤ n := by exact_mod_cast Nat.pos_of_ne_zero hn
  have h10 : ((10 ^ places : ℕ) : ℚ) ≤ 2 ^ (1021 : ℤ) := by
    rw [Nat.cast_pow, Nat.cast_ofNat]
    calc (10 : ℚ) ^ places ≤ 16 ^ places := pow_le_pow_left₀ (by norm_num) (by norm_num) places
      _ = 2 ^ ((4 * places : ℕ) : ℤ) := by rw [zpow_natCast, pow_mul]; norm_num
      _ ≤ 2 ^ (1021 : ℤ) := zpow_le_zpow_right₀ one_le_two (by omega)
  have hpos : (0 : ℚ) < (10 ^ places : ℕ) := by positivity
  rw [zpow_neg, ← one_div]
  exact div_le_div₀ (zero_le_one.trans h1) h1 hpos h10

end

section
variable {places : ℕ} {x y : Float}

/-- A double that is not negative is rounded to decimal places, and these to a double. -/
theorem roundedTo_of_isFinite (hx : 0 ≤ exactValue x) (hf : IsFinite x) :
    IsFinite (roundedTo places x) ∧ ∃ n : ℕ, IsNearestEven (exactValue x * 10 ^ places) n ∧
      exactValue (roundedTo places x) =
        gridUnits n (10 ^ places) * 2 ^ gridExponent n (10 ^ places) := by
  unfold IsFinite exactValue at *
  cases hd : Double.ofFloat x with
  | nan => rw [hd] at hf; cases hf
  | infinite negative => rw [hd] at hf; cases hf
  | finite negative m q =>
    obtain ⟨hm, -, hhigh⟩ := ofFloat_bounds hd
    have h10 : 0 < 10 ^ places := Nat.pow_pos (by decide)
    obtain ⟨m', q', hy, hval⟩ := ofFloat_nearest negative h10 (scaledUnits_div_le places hm hhigh)
    rw [← roundedTo_of_ofFloat hd] at hy
    rw [hd] at hx
    rw [hy]
    refine ⟨rfl, scaledUnits places m q, ?_⟩
    rw [← hval]
    cases negative with
    | false => exact ⟨isNearestEven_scaledUnits places m q, rfl⟩
    | true =>
      -- only zero has the sign and is not negative
      have hm0 : m = 0 := by
        have hle : (m : ℚ) * 2 ^ q ≤ 0 := neg_nonneg.1 hx
        have hq : (0 : ℚ) < 2 ^ q := by positivity
        have := nonpos_of_mul_nonpos_left hle hq
        exact Nat.le_zero.1 (by exact_mod_cast this)
      subst hm0
      have hunits : scaledUnits places 0 q = 0 := by simp [scaledUnits, roundHalfEven]
      rw [hunits, gridUnits_zero h10, Nat.cast_zero, zero_mul] at hval
      rw [hunits, Double.value_zero, Double.value, hval, zero_mul]
      exact ⟨isNearestEven_zero, neg_zero⟩

/-- What is not finite is written as a word, and read as the same again. -/
theorem roundedTo_of_not_isFinite (h : ¬ IsFinite x) : roundedTo places x = x :=
  roundedTo_eq_self (fun _ _ _ hx => h (by rw [IsFinite, hx]; rfl)) places

/-- **A double that is written with decimals** and read again is the same up to half of the last
    place and `slack`; an infinity stays what it is. -/
theorem roundedTo_spec (hp : places ≤ 255) (hx : 0 ≤ exactValue x) :
    (IsFinite (roundedTo places x) ↔ IsFinite x) ∧
      (IsDefined x → IsDefined (roundedTo places x)) ∧ 0 ≤ exactValue (roundedTo places x) ∧
      (IsFinite x → exactValue (roundedTo places x) ≤ slack * (exactValue x + halfUnit places) ∧
        exactValue x ≤ slack * (exactValue (roundedTo places x) + halfUnit places)) := by
  by_cases hf : IsFinite x
  · have h10 : 0 < 10 ^ places := Nat.pow_pos (by decide)
    have hhalf := (halfUnit_pos places).le
    obtain ⟨hyf, n, hn, hy⟩ := roundedTo_of_isFinite hx hf
    obtain ⟨h₁, h₂⟩ := abs_le.1 (dist_le_halfUnit hn)
    have hsmall : n = 0 ∨ (2 : ℚ) ^ (-1021 : ℤ) ≤ (n : ℚ) / (10 ^ places : ℕ) :=
      or_iff_not_imp_left.2 (le_div_ten_pow hp)
    obtain ⟨hup, hdown⟩ := gridUnits_slack h10 hsmall
    have hy0 : 0 ≤ exactValue (roundedTo places x) := by rw [hy]; positivity
    rw [← hy] at hup hdown
    refine ⟨iff_of_true hyf hf, fun _ => hyf.isDefined, hy0, fun _ => ⟨hup.trans ?_, ?_⟩⟩
    · exact mul_le_mul_of_nonneg_left (by linarith) slack_nonneg
    · rw [mul_add]
      linarith [le_slack_mul hhalf]
  · rw [roundedTo_of_not_isFinite hf]
    exact ⟨Iff.rfl, id, hx, fun h => absurd h hf⟩

/-- Of two doubles the larger one is not written and read as the smaller one. -/
theorem roundedTo_mono (hx : 0 ≤ exactValue x) (hxf : IsFinite x)
    (hyf : IsFinite y) (hle : exactValue x ≤ exactValue y) :
    exactValue (roundedTo places x) ≤ exactValue (roundedTo places y) := by
  have h10 : 0 < 10 ^ places := Nat.pow_pos (by decide)
  have hpos : (0 : ℚ) < (10 ^ places : ℕ) := by exact_mod_cast h10
  obtain ⟨-, n, hn, hxv⟩ := roundedTo_of_isFinite hx hxf
  obtain ⟨-, n', hn', hyv⟩ := roundedTo_of_isFinite (hx.trans hle) hyf
  have hunits : (n : ℚ) ≤ n' := by
    exact_mod_cast hn.mono hn' (mul_le_mul_of_nonneg_right hle (by positivity))
  rw [hxv, hyv]
  exact gridUnits_mono h10 h10 (div_le_div_of_nonneg_right hunits hpos.le)

/-- Each number of a sum is rounded by half of the last place at most. -/
theorem sum_roundedTo (hp : places ≤ 255) {l : List Float} (h0 : ∀ y ∈ l, 0 ≤ exactValue y)
    (hf : ∀ y ∈ l, IsFinite y) :
    ((l.map (roundedTo places)).map exactValue).sum ≤
        slack * ((l.map exactValue).sum + l.length * halfUnit places) ∧
      (l.map exactValue).sum ≤
        slack * (((l.map (roundedTo places)).map exactValue).sum + l.length * halfUnit places) := by
  induction l with
  | nil => simp
  | cons x l ih =>
    obtain ⟨hx0, h0⟩ := List.forall_mem_cons.1 h0
    obtain ⟨hxf, hf⟩ := List.forall_mem_cons.1 hf
    obtain ⟨-, -, -, hx⟩ := roundedTo_spec hp hx0
    obtain ⟨hx₁, hx₂⟩ := hx hxf
    obtain ⟨h₁, h₂⟩ := ih h0 hf
    simp only [List.map_cons, List.sum_cons, List.length_cons, Nat.cast_succ]
    constructor <;> linarith

theorem exactValue_roundedTo_of_zero (hf : IsFinite x) (h0 : exactValue x = 0) :
    exactValue (roundedTo places x) = 0 := by
  obtain ⟨-, n, hn, hv⟩ := roundedTo_of_isFinite h0.ge hf
  rw [h0, zero_mul] at hn
  rw [hv, hn.eq isNearestEven_zero, gridUnits_zero (Nat.pow_pos (by decide)), Nat.cast_zero,
    zero_mul]

/-- Of sums of one number at most, the smaller one does not become the larger one. -/
theorem sum_roundedTo_mono (hp : places ≤ 255) {l l' : List Float} (hl : l.length ≤ 1)
    (hl' : l'.length ≤ 1) (h0 : ∀ y ∈ l ++ l', 0 ≤ exactValue y) (hf : ∀ y ∈ l ++ l', IsFinite y)
    (hle : (l.map exactValue).sum ≤ (l'.map exactValue).sum) :
    ((l.map (roundedTo places)).map exactValue).sum ≤
      ((l'.map (roundedTo places)).map exactValue).sum := by
  have hnonneg : ∀ z ∈ (l'.map (roundedTo places)).map exactValue, 0 ≤ z :=
    List.forall_mem_map.2 (List.forall_mem_map.2 fun y hy =>
      (roundedTo_spec hp (h0 y (List.mem_append_right _ hy))).2.2.1)
  rcases l with _ | ⟨x, _ | ⟨_, _⟩⟩
  · exact List.sum_nonneg hnonneg
  · have hx0 := h0 x (List.mem_append_left _ (List.mem_singleton_self x))
    have hxf := hf x (List.mem_append_left _ (List.mem_singleton_self x))
    rcases l' with _ | ⟨y, _ | ⟨_, _⟩⟩
    · have hx : exactValue x = 0 := le_antisymm (by simpa using hle) hx0
      simp [exactValue_roundedTo_of_zero hxf hx]
    · have hyf := hf y (List.mem_append_right _ (List.mem_singleton_self y))
      simpa using roundedTo_mono hx0 hxf hyf (by simpa using hle)
    · simp at hl'
  · simp at hl

end

end PrimaryEnergy.Decimal
