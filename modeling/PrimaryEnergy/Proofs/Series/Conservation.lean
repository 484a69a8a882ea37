/-
  No element of a series is lost or counted twice.

  Where addition is exact, sums in blocks, in halves and by columns take every element once.

  * `getElem_columnSums`: an element of the sum of several series is the sum of the elements there
    of those that reach it;
  * `total_columnSums`: the columns add up to what the series add up to;
  * `columnSums_perm`: the order of the series makes no difference;
  * `elements_counted_once`: all of this, and that only zeros add up to zero, for exact numbers and
    for doubles.
-/
import Mathlib.Algebra.BigOperators.Group.Finset.Basic
import Mathlib.Algebra.BigOperators.Group.List.Lemmas
import Mathlib.Algebra.Order.Field.Rat
import PrimaryEnergy.Proofs.Series.Rounded

namespace PrimaryEnergy.Series

open Decimal

section
variable {α : Type} [AddCommMonoid α]

/-! ## Columns -/

/-- A series that has ended adds nothing. -/
theorem sum_map_getD (vs : List (List α)) (k : ℕ) :
    (vs.map (·.getD k 0)).sum = (vs.filterMap (·[k]?)).sum := by
  induction vs with
  | nil => rfl
  | cons v vs ih =>
    rw [List.map_cons, List.sum_cons, ih, List.getD_eq_getElem?_getD, List.filterMap_cons]
    cases v[k]? with
    | none => exact zero_add _
    | some x => exact List.sum_cons.symm

theorem getElem_columnSums (vs : List (List α)) {k : ℕ} (hk : k < (columnSums vs).length) :
    (columnSums vs)[k] = (vs.filterMap (·[k]?)).sum := by
  rw [← List.getD_eq_getElem _ 0 hk, getD_columnSums, sum_map_getD]

/-! ## The columns together -/

/-- A series can be summed over any range that it does not exceed. -/
theorem sum_range_getD {v : List α} {n : ℕ} (h : v.length ≤ n) :
    ∑ k ∈ Finset.range n, v.getD k 0 = v.sum := by
  induction v generalizing n with
  | nil => exact Finset.sum_eq_zero fun _ _ => rfl
  | cons x v ih =>
    cases n with
    | zero => exact absurd h (Nat.not_succ_le_zero _)
    | succ n =>
      rw [Finset.sum_range_succ', List.sum_cons, ← ih (Nat.le_of_succ_le_succ h), add_comm]
      rfl

/-- Column by column or series by series, the elements add up to the same. -/
theorem sum_range_columns (vs : List (List α)) (n : ℕ) :
    ∑ k ∈ Finset.range n, (vs.map (·.getD k 0)).sum =
      (vs.map fun v => ∑ k ∈ Finset.range n, v.getD k 0).sum := by
  induction vs with
  | nil => exact Finset.sum_eq_zero fun _ _ => rfl
  | cons v vs ih => simp only [List.map_cons, List.sum_cons, Finset.sum_add_distrib, ih]

theorem total_columnSums (vs : List (List α)) : total (columnSums vs) = (vs.map total).sum := by
  have hrow : ∀ v ∈ vs, ∑ k ∈ Finset.range (longest vs), v.getD k 0 = total v := by
    intro v hv
    rw [sum_range_getD (length_le_longest hv), total_eq_sum]
  calc total (columnSums vs) = ∑ k ∈ Finset.range (longest vs), (columnSums vs).getD k 0 := by
        rw [total_eq_sum, sum_range_getD (length_columnSums vs).le]
    _ = ∑ k ∈ Finset.range (longest vs), (vs.map (·.getD k 0)).sum :=
        Finset.sum_congr rfl fun k _ => getD_columnSums vs k
    _ = (vs.map fun v => ∑ k ∈ Finset.range (longest vs), v.getD k 0).sum :=
        sum_range_columns vs (longest vs)
    _ = (vs.map total).sum := by rw [List.map_congr_left hrow]

/-! ## The order of the series -/

omit [AddCommMonoid α] in
theorem longest_perm {vs ws : List (List α)} (h : vs.Perm ws) : longest vs = longest ws := by
  refine le_antisymm (longest_le_iff.2 fun v hv => ?_) (longest_le_iff.2 fun w hw => ?_)
  · exact length_le_longest (h.mem_iff.1 hv)
  · exact length_le_longest (h.mem_iff.2 hw)

theorem columnSums_perm {vs ws : List (List α)} (h : vs.Perm ws) :
    columnSums vs = columnSums ws := by
  refine ext_getD ?_ fun k => ?_
  · rw [length_columnSums, length_columnSums, longest_perm h]
  · rw [getD_columnSums, getD_columnSums]
    exact (h.map _).sum_eq

end

/-! ## Zeros -/

/-- Of doubles that are not negative, only zeros add up to zero. -/
theorem total_beq_zero_iff_of_le {v : List Float} (h : ∀ x ∈ v, 0 ≤ x) :
    (total v == 0) = true ↔ ∀ x ∈ v, (x == 0) = true := by
  have hv : ∀ x ∈ v, IsDefined x ∧ 0 ≤ exactValue x := fun x hx => nonneg_iff.1 (h x hx)
  rw [total_beq_zero_iff fun x hx => (hv x hx).2]
  refine forall₂_congr fun x hx => ?_
  obtain ⟨hd, h0⟩ := hv x hx
  rw [beq_zero_iff]
  constructor
  · exact fun ⟨hf, hzero⟩ => ⟨hf.isDefined, hzero⟩
  · exact fun ⟨_, hzero⟩ =>
      ⟨isFinite_of_lt_overflowBound hd h0 (hzero.trans_lt overflowBound_pos), hzero⟩

/-! ## Counting -/

/-- **Every element is counted once.**  A total is the sum of the elements, whatever their number,
    and a long series is cut into shorter ones; the sum of several series is as long as the longest
    one, adds up what stands at one place, has the total of all series together and does not depend
    on their order.  Where nothing is negative, only zeros add up to zero, also if additions are
    rounded. -/
theorem elements_counted_once {α : Type} [AddCommMonoid α] (vs : List (List α)) :
    (∀ v : List α, total v = v.sum) ∧
      (∀ n, 128 < n → 0 < splitPoint n ∧ splitPoint n < n) ∧
      (columnSums vs).length = longest vs ∧
      (∀ (k : ℕ) (hk : k < (columnSums vs).length),
        (columnSums vs)[k] = (vs.filterMap (·[k]?)).sum) ∧
      total (columnSums vs) = (vs.map total).sum ∧
      (∀ ws, vs.Perm ws → columnSums ws = columnSums vs) ∧
      (∀ [PartialOrder α] [IsOrderedAddMonoid α] (v : List α), (∀ x ∈ v, 0 ≤ x) →
        (total v = 0 ↔ ∀ x ∈ v, x = 0)) ∧
      ∀ v : List Float, (∀ x ∈ v, 0 ≤ x) →
        ((total v == 0) = true ↔ ∀ x ∈ v, (x == 0) = true) := by
  refine ⟨total_eq_sum, fun n hn => ⟨splitPoint_pos hn, splitPoint_lt hn⟩, length_columnSums vs,
    fun k hk => getElem_columnSums vs hk, total_columnSums vs,
    fun ws h => (columnSums_perm h).symm, ?_, fun v => total_beq_zero_iff_of_le⟩
  intro _ _ v hv
  rw [total_eq_zero_iff hv]
  exact forall_getD_iff (P := fun x : α => x = 0) rfl

/-- Two meters, one of which has stopped after the first hour. -/
def twoMeters : List (List ℚ) := [[1, 2], [3]]

theorem elements_counted_once_twoMeters :
    (128 < 200 ∧ 0 < splitPoint 200 ∧ splitPoint 200 < 200) ∧
      (∃ h : 1 < (columnSums twoMeters).length, (columnSums twoMeters)[1] = 2) ∧
      (twoMeters.Perm twoMeters.reverse ∧ columnSums twoMeters.reverse = columnSums twoMeters) ∧
      ((∀ x ∈ ([0, 2] : List ℚ), 0 ≤ x) ∧ total ([0, 2] : List ℚ) ≠ 0) ∧
      (∀ x ∈ ([0, -0.0] : List Float), 0 ≤ x) ∧ (total ([0, -0.0] : List Float) == 0) = true := by
  obtain ⟨-, hsplit, hlength, hcolumn, -, hperm, hzero, hdouble⟩ := elements_counted_once twoMeters
  have hreverse : twoMeters.Perm twoMeters.reverse := twoMeters.reverse_perm.symm
  have h1 : 1 < (columnSums twoMeters).length := by rw [hlength]; decide
  have hnonneg : ∀ x ∈ ([0, 2] : List ℚ), 0 ≤ x := by simp
  have hdoubles : ∀ x ∈ ([0, -0.0] : List Float), 0 ≤ x := by decide
  refine ⟨⟨by decide, hsplit 200 (by decide)⟩, ⟨h1, (hcolumn 1 h1).trans (by simp [twoMeters])⟩,
    ⟨hreverse, hperm _ hreverse⟩, ⟨hnonneg, ?_⟩, hdoubles, (hdouble _ hdoubles).2 (by decide)⟩
  rw [ne_eq, hzero _ hnonneg]
  simp

end PrimaryEnergy.Series
