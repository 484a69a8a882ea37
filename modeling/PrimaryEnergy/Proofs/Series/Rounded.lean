/-
  Sums of doubles that are not negative.

  A computed sum depends on the order of its additions, but whatever the order is, each addition
  changes the result by a factor of at most `slack`.

  * `IsSum n x s`: the double `x` is the sum of `s`, with `n` roundings at most after each other;
  * `IsSum.add`: one more addition;
  * `isSum_total` and `isSum_columnSums`: sums in pairs and by columns;
  * `total_beq_zero_iff`: only zeros add up to zero;
  * `exactValue_columnSums`: a single series is its own sum.
-/
import Mathlib.Algebra.BigOperators.Group.Multiset.Basic
import Mathlib.Algebra.Order.BigOperators.Group.Multiset
import PrimaryEnergy.Proofs.Decimal.Arithmetic
import PrimaryEnergy.Proofs.Series.Sum

namespace PrimaryEnergy.Series

open Decimal

/-- A double that is computed as the sum of doubles that are not negative, with at most so many
    roundings after each other. -/
structure IsSum (n : ℕ) (x : Float) (s : Multiset Float) : Prop where
  nonneg : 0 ≤ exactValue x
  defined : (∀ y ∈ s, IsDefined y) → IsDefined x
  le : exactValue x ≤ slack ^ n * (s.map exactValue).sum
  finite : IsFinite x → ∀ y ∈ s, IsFinite y
  ge : IsFinite x → (s.map exactValue).sum ≤ slack ^ n * exactValue x

namespace IsSum

variable {n m : ℕ} {x y a : Float} {s t : Multiset Float} {v : List Float}

theorem zero : IsSum 0 0 0 := by
  have hnone : ∀ y ∈ (0 : Multiset Float), IsFinite y :=
    fun y hy => absurd hy (Multiset.notMem_zero y)
  refine ⟨exactValue_zero.ge, fun _ => isFinite_zero.isDefined, ?_, fun _ => hnone, fun _ => ?_⟩ <;>
    simp [exactValue_zero]

theorem single (h : 0 ≤ exactValue x) : IsSum 0 x {x} := by
  refine ⟨h, fun hd => hd x (Multiset.mem_singleton_self x), ?_, ?_, fun _ => ?_⟩
  · simp
  · intro hf y hy
    rwa [Multiset.mem_singleton.1 hy]
  · simp

theorem sum_nonneg (h : IsSum n x s) : 0 ≤ (s.map exactValue).sum :=
  nonneg_of_mul_nonneg_right (h.nonneg.trans h.le) (slack_pow_pos n)

theorem mono (h : IsSum n x s) (hnm : n ≤ m) : IsSum m x s := by
  have hpow : slack ^ n ≤ slack ^ m := slack_pow_le hnm
  exact ⟨h.nonneg, h.defined, h.le.trans (mul_le_mul_of_nonneg_right hpow h.sum_nonneg), h.finite,
    fun hf => (h.ge hf).trans (mul_le_mul_of_nonneg_right hpow h.nonneg)⟩

/-- One more addition is one more rounding. -/
theorem add (hx : IsSum n x s) (hy : IsSum n y t) : IsSum (n + 1) (x + y) (s + t) := by
  obtain ⟨h0, hd, hle, hge⟩ := add_of_nonneg hx.nonneg hy.nonneg
  refine ⟨h0, ?_, ?_, ?_, ?_⟩
  · intro h
    exact hd (hx.defined fun z hz => h z (Multiset.mem_add.2 (Or.inl hz)))
      (hy.defined fun z hz => h z (Multiset.mem_add.2 (Or.inr hz)))
  · rw [Multiset.map_add, Multiset.sum_add, pow_succ', mul_assoc, mul_add]
    exact hle.trans (mul_le_mul_of_nonneg_left (add_le_add hx.le hy.le) slack_nonneg)
  · intro h z hz
    obtain ⟨hxf, hyf, -⟩ := hge h
    rcases Multiset.mem_add.1 hz with hz | hz
    · exact hx.finite hxf z hz
    · exact hy.finite hyf z hz
  · intro h
    obtain ⟨hxf, hyf, hge⟩ := hge h
    rw [Multiset.map_add, Multiset.sum_add, pow_succ, mul_assoc]
    refine (add_le_add (hx.ge hxf) (hy.ge hyf)).trans ?_
    rw [← mul_add]
    exact mul_le_mul_of_nonneg_left hge (slack_pow_nonneg n)

/-- Adding the elements of a series one after the other. -/
theorem foldl (h : IsSum n a s) (hv : ∀ y ∈ v, 0 ≤ exactValue y) :
    IsSum (n + v.length) (v.foldl (· + ·) a) (s + v) := by
  induction v generalizing n a s with
  | nil => simpa using h
  | cons y v ih =>
    have hy : IsSum n y {y} := (single (hv y List.mem_cons_self)).mono (Nat.zero_le n)
    have := ih (h.add hy) fun z hz => hv z (List.mem_cons_of_mem _ hz)
    rw [add_assoc s, Multiset.singleton_add, Multiset.cons_coe] at this
    rwa [List.foldl_cons, List.length_cons, Nat.add_comm v.length 1, ← Nat.add_assoc]

end IsSum

section
variable {v : List Float}

theorem isSum_leftSum (hv : ∀ y ∈ v, 0 ≤ exactValue y) : IsSum v.length (leftSum v) v := by
  have := IsSum.zero.foldl hv
  rwa [Nat.zero_add, zero_add] at this

theorem isSum_lanes {n : ℕ} {r₀ r₁ r₂ r₃ r₄ r₅ r₆ r₇ : Float}
    {s₀ s₁ s₂ s₃ s₄ s₅ s₆ s₇ : Multiset Float}
    (h₀ : IsSum n r₀ s₀) (h₁ : IsSum n r₁ s₁) (h₂ : IsSum n r₂ s₂) (h₃ : IsSum n r₃ s₃)
    (h₄ : IsSum n r₄ s₄) (h₅ : IsSum n r₅ s₅) (h₆ : IsSum n r₆ s₆) (h₇ : IsSum n r₇ s₇)
    (hv : ∀ y ∈ v, 0 ≤ exactValue y) :
    IsSum (n + 3 + v.length) (lanes r₀ r₁ r₂ r₃ r₄ r₅ r₆ r₇ v)
      (s₀ + s₁ + s₂ + s₃ + s₄ + s₅ + s₆ + s₇ + v) := by
  fun_induction lanes r₀ r₁ r₂ r₃ r₄ r₅ r₆ r₇ v generalizing n s₀ s₁ s₂ s₃ s₄ s₅ s₆ s₇ with
  | case1 r₀ r₁ r₂ r₃ r₄ r₅ r₆ r₇ a₀ a₁ a₂ a₃ a₄ a₅ a₆ a₇ v ih =>
    simp only [List.forall_mem_cons] at hv
    obtain ⟨g₀, g₁, g₂, g₃, g₄, g₅, g₆, g₇, hv⟩ := hv
    have hone {x : Float} (hx : 0 ≤ exactValue x) : IsSum n x {x} :=
      (IsSum.single hx).mono (Nat.zero_le n)
    have h := ih (h₀.add (hone g₀)) (h₁.add (hone g₁)) (h₂.add (hone g₂)) (h₃.add (hone g₃))
      (h₄.add (hone g₄)) (h₅.add (hone g₅)) (h₆.add (hone g₆)) (h₇.add (hone g₇)) hv
    have hs : s₀ + {a₀} + (s₁ + {a₁}) + (s₂ + {a₂}) + (s₃ + {a₃}) + (s₄ + {a₄}) + (s₅ + {a₅}) +
        (s₆ + {a₆}) + (s₇ + {a₇}) + (v : Multiset Float) = s₀ + s₁ + s₂ + s₃ + s₄ + s₅ + s₆ + s₇ +
        ((a₀ :: a₁ :: a₂ :: a₃ :: a₄ :: a₅ :: a₆ :: a₇ :: v : List Float) : Multiset Float) := by
      simp only [← Multiset.cons_coe, ← Multiset.singleton_add]
      abel
    rw [hs] at h
    refine h.mono ?_
    simp only [List.length_cons]
    omega
  | case2 r₀ r₁ r₂ r₃ r₄ r₅ r₆ r₇ v _ =>
    have h := (((h₀.add h₁).add (h₂.add h₃)).add ((h₄.add h₅).add (h₆.add h₇))).foldl hv
    have hs : s₀ + s₁ + (s₂ + s₃) + (s₄ + s₅ + (s₆ + s₇)) + (v : Multiset Float) =
        s₀ + s₁ + s₂ + s₃ + s₄ + s₅ + s₆ + s₇ + v := by abel
    rwa [hs] at h

theorem isSum_blockedSum (hv : ∀ y ∈ v, 0 ≤ exactValue y) :
    IsSum v.length (blockedSum v) v := by
  unfold blockedSum
  split
  · rename_i a₀ a₁ a₂ a₃ a₄ a₅ a₆ a₇ v
    simp only [List.forall_mem_cons] at hv
    obtain ⟨g₀, g₁, g₂, g₃, g₄, g₅, g₆, g₇, hv⟩ := hv
    have h := isSum_lanes (.single g₀) (.single g₁) (.single g₂) (.single g₃) (.single g₄)
      (.single g₅) (.single g₆) (.single g₇) hv
    have hs : {a₀} + {a₁} + {a₂} + {a₃} + {a₄} + {a₅} + {a₆} + {a₇} + (v : Multiset Float) =
        ((a₀ :: a₁ :: a₂ :: a₃ :: a₄ :: a₅ :: a₆ :: a₇ :: v : List Float) : Multiset Float) := by
      simp only [← Multiset.cons_coe, ← Multiset.singleton_add]
      abel
    rw [hs] at h
    refine h.mono ?_
    simp only [List.length_cons]
    omega
  · exact isSum_leftSum hv

theorem isSum_pairwiseSum (hv : ∀ y ∈ v, 0 ≤ exactValue y) :
    IsSum v.length (pairwiseSum v) v := by
  fun_induction pairwiseSum v with
  | case1 v h ih₁ ih₂ =>
    have hpos := splitPoint_pos h
    have hlt := splitPoint_lt h
    have h₁ := ih₁ fun y hy => hv y (List.mem_of_mem_take hy)
    have h₂ := ih₂ fun y hy => hv y (List.mem_of_mem_drop hy)
    have hn₁ : (v.take (splitPoint v.length)).length ≤ v.length - 1 := by
      rw [List.length_take]; omega
    have hn₂ : (v.drop (splitPoint v.length)).length ≤ v.length - 1 := by
      rw [List.length_drop]; omega
    have hsum := (h₁.mono hn₁).add (h₂.mono hn₂)
    rw [Multiset.coe_add, List.take_append_drop] at hsum
    exact hsum.mono (by omega)
  | case2 v h => exact isSum_blockedSum hv

theorem isSum_total (hv : ∀ y ∈ v, 0 ≤ exactValue y) : IsSum (v.length + 1) (total v) v := by
  have h := (IsSum.zero.mono (Nat.zero_le v.length)).add (isSum_pairwiseSum hv)
  rwa [zero_add] at h

/-- **Of doubles that are not negative**, the computed total is zero if each of them is, and only
    then. -/
theorem total_beq_zero_iff (hv : ∀ y ∈ v, 0 ≤ exactValue y) :
    (total v == 0) = true ↔ ∀ y ∈ v, IsFinite y ∧ exactValue y = 0 := by
  have hnonneg := List.forall_mem_map.2 hv
  obtain ⟨h0, hdefined, hle, hfinite, hge⟩ := isSum_total hv
  rw [Multiset.map_coe, Multiset.sum_coe] at hle hge
  rw [beq_zero_iff]
  constructor
  · rintro ⟨hd, hzero⟩ y hy
    have hf := isFinite_of_lt_overflowBound hd h0 (hzero.trans_lt overflowBound_pos)
    have hsum := hge hf
    rw [hzero, mul_zero] at hsum
    exact ⟨hfinite hf y (Multiset.mem_coe.2 hy), List.all_zero_of_le_zero_le_of_sum_eq_zero hnonneg
      (le_antisymm hsum (List.sum_nonneg hnonneg)) (List.mem_map_of_mem hy)⟩
  · intro hall
    have hsum : (v.map exactValue).sum = 0 :=
      List.sum_eq_zero (List.forall_mem_map.2 fun y hy => (hall y hy).2)
    rw [hsum, mul_zero] at hle
    exact ⟨hdefined fun y hy => (hall y (Multiset.mem_coe.1 hy)).1.isDefined, le_antisymm hle h0⟩

theorem isSum_zeros (h : ∀ y ∈ v, y = 0) : IsSum 0 0 v := by
  have hsum : ((v : Multiset Float).map exactValue).sum = 0 := by
    rw [Multiset.map_coe, Multiset.sum_coe]
    refine List.sum_eq_zero (List.forall_mem_map.2 fun y hy => ?_)
    rw [h y hy, exactValue_zero]
  have hfinite : ∀ y ∈ (v : Multiset Float), IsFinite y := fun y hy =>
    h y (Multiset.mem_coe.1 hy) ▸ isFinite_zero
  refine ⟨exactValue_zero.ge, fun _ => isFinite_zero.isDefined, ?_, fun _ => hfinite, fun _ => ?_⟩
  all_goals rw [hsum, exactValue_zero, mul_zero]

/-- **Each element of the sum of several series** is a sum of their elements there. -/
theorem isSum_columnSums {vs : List (List Float)}
    (hv : ∀ v ∈ vs, ∀ y ∈ v, 0 ≤ exactValue y) (k : ℕ) :
    IsSum (vs.length + 1) ((columnSums vs).getD k 0) (vs.map (·.getD k 0) : List Float) := by
  have h0 : 0 ≤ exactValue 0 := exactValue_zero.ge
  have hk : ∀ y ∈ vs.map (·.getD k 0), 0 ≤ exactValue y := by
    rw [List.forall_mem_map]
    exact fun v hmem => (forall_getD_iff (P := fun y => 0 ≤ exactValue y) h0).2 (hv v hmem) k
  have hlen : (vs.map (·.getD k 0)).length = vs.length := List.length_map _
  rw [getD_columnSums_eq (by decide), ← hlen]
  split_ifs with h1 hk0
  · exact isSum_total hk
  · exact (isSum_zeros (map_getD_eq_zero (h1.le.trans (Nat.one_le_iff_ne_zero.2 hk0)))).mono
      (Nat.zero_le _)
  · exact (isSum_leftSum hk).mono (Nat.le_succ _)

/-- A single series is its own sum, apart from the sign of zeros. -/
theorem exactValue_columnSums {vs : List (List Float)} {k : ℕ} (hlen : vs.length ≤ 1)
    (hf : ∀ x ∈ vs.map (·.getD k 0), IsFinite x) :
    IsFinite ((columnSums vs).getD k 0) ∧
      exactValue ((columnSums vs).getD k 0) = ((vs.map (·.getD k 0)).map exactValue).sum := by
  have hk0 : longest vs ≤ k → ∀ x ∈ vs.map (·.getD k 0), x = 0 := map_getD_eq_zero
  rw [getD_columnSums_eq (by decide)]
  rcases vs with _ | ⟨v, _ | ⟨w, vs⟩⟩
  · rw [if_neg (by decide)]
    exact ⟨isFinite_zero, exactValue_zero⟩
  · generalize hx : v.getD k 0 = x at *
    simp only [List.map_cons, List.map_nil, hx, List.forall_mem_singleton, List.sum_singleton]
      at hf hk0 ⊢
    obtain ⟨hf₁, hv₁⟩ := zero_add_of_isFinite hf
    split_ifs with h1 hk
    · have htotal : total [x] = 0 + (0 + x) := by
        rw [total, pairwiseSum]
        rfl
      obtain ⟨hf₂, hv₂⟩ := zero_add_of_isFinite hf₁
      rw [htotal]
      exact ⟨hf₂, hv₂.trans hv₁⟩
    · rw [hk0 (h1.le.trans (Nat.one_le_iff_ne_zero.2 hk))]
      exact ⟨isFinite_zero, rfl⟩
    · exact ⟨hf₁, hv₁⟩
  · simp at hlen

end

end PrimaryEnergy.Series
