/-
  Sums over exact numbers.

  Where addition is exact, its order does not matter.

  * `leftSum_eq_sum`, `total_eq_sum` and `compensatedSum_eq_sum`: a series is summed to the sum of
    its elements, also in blocks and in halves, and with compensation;
  * `getD_columnSums`: each element of the sum of several series is the sum of their elements
    there, of those that are long enough; `length_columnSums`: it is as long as the longest one;
  * `getD_sub` and `getD_map_clamp`: the elements of a difference and of what is left of a series
    above zero;
  * `total_eq_zero_iff`: where nothing is negative, only zeros add up to zero.
-/
import Mathlib.Algebra.BigOperators.Group.List.Basic
import Mathlib.Algebra.Order.BigOperators.Group.List
import Mathlib.Algebra.Ring.Defs
import Mathlib.Data.List.GetD
import Mathlib.Tactic.Abel
import PrimaryEnergy.Series.Pointwise

namespace PrimaryEnergy.Series

/-! ## One series -/

section
variable {α : Type} [AddCommMonoid α]

theorem foldl_add (v : List α) (a : α) : v.foldl (· + ·) a = a + v.sum := by
  induction v generalizing a with
  | nil => simp
  | cons x v ih => simp [ih, add_assoc]

theorem leftSum_eq_sum (v : List α) : leftSum v = v.sum := by
  rw [leftSum, foldl_add, zero_add]

theorem lanes_eq_sum (r₀ r₁ r₂ r₃ r₄ r₅ r₆ r₇ : α) (v : List α) :
    lanes r₀ r₁ r₂ r₃ r₄ r₅ r₆ r₇ v = [r₀, r₁, r₂, r₃, r₄, r₅, r₆, r₇].sum + v.sum := by
  fun_induction lanes r₀ r₁ r₂ r₃ r₄ r₅ r₆ r₇ v with
  | case1 r₀ r₁ r₂ r₃ r₄ r₅ r₆ r₇ a₀ a₁ a₂ a₃ a₄ a₅ a₆ a₇ v ih =>
    rw [ih]
    simp only [List.sum_cons, List.sum_nil]
    abel
  | case2 r₀ r₁ r₂ r₃ r₄ r₅ r₆ r₇ v _ =>
    rw [foldl_add]
    simp only [List.sum_cons, List.sum_nil]
    abel

theorem blockedSum_eq_sum (v : List α) : blockedSum v = v.sum := by
  unfold blockedSum
  split
  · rw [lanes_eq_sum]
    simp only [List.sum_cons, List.sum_nil]
    abel
  · exact leftSum_eq_sum v

theorem pairwiseSum_eq_sum (v : List α) : pairwiseSum v = v.sum := by
  fun_induction pairwiseSum v with
  | case1 v h ih₁ ih₂ => rw [ih₁, ih₂, List.sum_take_add_sum_drop]
  | case2 v h => exact blockedSum_eq_sum v

theorem total_eq_sum (v : List α) : total v = v.sum := by
  rw [total, pairwiseSum_eq_sum, zero_add]

end

section
variable {α : Type} [AddCommGroup α] [BEq α] [ReflBEq α]

/-- Where addition is exact, there is no error to carry. -/
theorem add_of_error_eq_zero (s x : α) : Compensated.add ⟨s, 0⟩ x = ⟨s + x, 0⟩ := by
  simp [Compensated.add, undefinedValue]

theorem foldl_compensatedAdd (s : α) (v : List α) :
    v.foldl Compensated.add ⟨s, 0⟩ = ⟨s + v.sum, 0⟩ := by
  induction v generalizing s with
  | nil => simp
  | cons x v ih => rw [List.foldl_cons, add_of_error_eq_zero, ih, List.sum_cons, add_assoc]

theorem compensatedSum_eq_sum (v : List α) : compensatedSum v = v.sum := by
  rw [compensatedSum, foldl_compensatedAdd, zero_add]

end

/-! ## The longest series -/

section
variable {α : Type}

theorem longest_cons (v : List α) (vs : List (List α)) :
    longest (v :: vs) = max v.length (longest vs) := by
  show (vs.map List.length).foldl max (max 0 v.length) = max v.length _
  rw [max_comm, List.foldl_assoc]
  rfl

theorem longest_append (vs ws : List (List α)) :
    longest (vs ++ ws) = max (longest vs) (longest ws) := by
  induction vs with
  | nil => exact (Nat.zero_max _).symm
  | cons v vs ih => rw [List.cons_append, longest_cons, longest_cons, ih, Nat.max_assoc]

theorem longest_le_iff {vs : List (List α)} {n : Nat} :
    longest vs ≤ n ↔ ∀ v ∈ vs, v.length ≤ n := by
  induction vs with
  | nil => simp [longest]
  | cons v vs ih => rw [longest_cons, Nat.max_le, ih, List.forall_mem_cons]

theorem length_le_longest {v : List α} {vs : List (List α)} (h : v ∈ vs) :
    v.length ≤ longest vs :=
  longest_le_iff.1 le_rfl v h

end

/-! ## Element by element -/

section
variable {α : Type} [Zero α]

theorem ext_getD {a b : List α} (hl : a.length = b.length) (h : ∀ k, a.getD k 0 = b.getD k 0) :
    a = b := by
  refine List.ext_getElem hl fun k ha hb => ?_
  rw [← List.getD_eq_getElem a 0 ha, ← List.getD_eq_getElem b 0 hb, h]

theorem forall_getD_iff {P : α → Prop} (h0 : P 0) {v : List α} :
    (∀ k, P (v.getD k 0)) ↔ ∀ x ∈ v, P x := by
  constructor
  · intro h x hx
    obtain ⟨k, hk, rfl⟩ := List.getElem_of_mem hx
    rw [← List.getD_eq_getElem v 0 hk]
    exact h k
  · intro h k
    by_cases hk : k < v.length
    · rw [List.getD_eq_getElem v 0 hk]
      exact h _ (List.getElem_mem hk)
    · rwa [List.getD_eq_default v 0 (not_lt.1 hk)]

theorem getD_nonneg [Preorder α] {v : List α} (h : ∀ x ∈ v, 0 ≤ x) (k : Nat) :
    0 ≤ v.getD k 0 :=
  (forall_getD_iff (P := fun x : α => 0 ≤ x) le_rfl).2 h k

theorem getD_pad (n : Nat) (v : List α) (k : Nat) : (pad n v).getD k 0 = v.getD k 0 := by
  unfold pad
  by_cases hk : k < v.length
  · rw [List.getD_append _ _ _ _ hk]
  · have hk := not_lt.1 hk
    rw [List.getD_append_right _ _ _ _ hk, List.getD_eq_default v 0 hk,
      List.getD_eq_getElem?_getD, List.getElem?_replicate]
    split_ifs <;> rfl

theorem getD_zipWith {f : α → α → α} (hf : f 0 0 = 0) {a b : List α} (hl : a.length = b.length)
    (k : Nat) : (List.zipWith f a b).getD k 0 = f (a.getD k 0) (b.getD k 0) := by
  by_cases hk : k < a.length
  · have hb : k < b.length := hl ▸ hk
    rw [List.getD_eq_getElem a 0 hk, List.getD_eq_getElem b 0 hb,
      List.getD_eq_getElem _ 0 (by rw [List.length_zipWith]; exact lt_min hk hb),
      List.getElem_zipWith]
  · have hk := not_lt.1 hk
    rw [List.getD_eq_default a 0 hk, List.getD_eq_default b 0 (hl ▸ hk), List.getD_eq_default, hf]
    rw [List.length_zipWith]
    omega

/-- The shorter series counts as zero where it has ended. -/
theorem getD_zipPadded {f : α → α → α} (hf : f 0 0 = 0) (a b : List α) (k : Nat) :
    (zipPadded f a b).getD k 0 = f (a.getD k 0) (b.getD k 0) := by
  have hl : (pad (max a.length b.length) a).length = (pad (max a.length b.length) b).length := by
    rw [length_pad, length_pad]
    omega
  rw [zipPadded, getD_zipWith hf hl, getD_pad, getD_pad]

theorem getD_map_of_zero {β : Type} [Zero β] {f : α → β} (hf : f 0 = 0) (v : List α) (k : Nat) :
    (v.map f).getD k 0 = f (v.getD k 0) := by
  have h := List.getD_map (l := v) (d := 0) (n := k) f
  rwa [hf] at h

theorem getD_scale {β : Type} [MulZeroClass β] (c : β) (v : List β) (k : Nat) :
    (scale c v).getD k 0 = v.getD k 0 * c :=
  getD_map_of_zero (zero_mul c) v k

theorem length_scale {β : Type} [Mul β] (c : β) (v : List β) : (scale c v).length = v.length :=
  List.length_map _

theorem getD_sub {β : Type} [AddGroup β] (a b : List β) (k : Nat) :
    (sub a b).getD k 0 = a.getD k 0 - b.getD k 0 :=
  getD_zipPadded (sub_zero 0) a b k

theorem clamp_eq_max {β : Type} [Zero β] [LinearOrder β] (x : β) : clamp x = max x 0 := by
  unfold clamp
  split_ifs with h
  · exact (max_eq_right h.le).symm
  · exact (max_eq_left (not_lt.1 h)).symm

theorem getD_map_clamp {β : Type} [Zero β] [LinearOrder β] (v : List β) (k : Nat) :
    (v.map clamp).getD k 0 = max (v.getD k 0) 0 := by
  have h0 : clamp (0 : β) = 0 := if_neg (lt_irrefl 0)
  rw [getD_map_of_zero h0, clamp_eq_max]

end

/-! ## By columns -/

section
variable {α : Type}

theorem length_foldl_zipWith [Add α] {rows : List (List α)} {s : List α}
    (h : ∀ r ∈ rows, r.length = s.length) :
    (rows.foldl (List.zipWith (· + ·)) s).length = s.length := by
  induction rows generalizing s with
  | nil => rfl
  | cons r rows ih =>
    have hl : (List.zipWith (· + ·) s r).length = s.length := by
      rw [List.length_zipWith, h r List.mem_cons_self, min_self]
    rw [List.foldl_cons, ih fun r' hr' => (h r' (List.mem_cons_of_mem _ hr')).trans hl.symm, hl]

/-- Extended with zeros, the rows are as long as the longest one. -/
theorem length_of_mem_map_pad [Zero α] {vs : List (List α)} :
    ∀ r ∈ vs.map (pad (longest vs)),
      r.length = (List.replicate (longest vs) (0 : α)).length := by
  intro r hr
  obtain ⟨v, hv, rfl⟩ := List.mem_map.1 hr
  rw [length_pad, List.length_replicate]
  exact max_eq_right (length_le_longest hv)

theorem length_columnSums [Zero α] [Add α] (vs : List (List α)) :
    (columnSums vs).length = longest vs := by
  unfold columnSums
  simp only
  split_ifs with h1
  · exact h1.symm
  · rw [length_foldl_zipWith length_of_mem_map_pad, List.length_replicate]

end

section
variable {α : Type} [Zero α] [Add α] (h0 : (0 : α) + 0 = 0)
include h0

/-- Rows that are as long as the sum that they are added to, one after the other. -/
theorem getD_foldl_zipWith (rows : List (List α)) (s : List α)
    (h : ∀ r ∈ rows, r.length = s.length) (k : Nat) :
    (rows.foldl (List.zipWith (· + ·)) s).getD k 0 =
      (rows.map (·.getD k 0)).foldl (· + ·) (s.getD k 0) := by
  induction rows generalizing s with
  | nil => rfl
  | cons r rows ih =>
    have hr := h r List.mem_cons_self
    have hl : (List.zipWith (· + ·) s r).length = s.length := by
      rw [List.length_zipWith, hr, min_self]
    have ih := ih (List.zipWith (· + ·) s r) fun r' hr' =>
      (h r' (List.mem_cons_of_mem _ hr')).trans hl.symm
    rw [List.foldl_cons, ih, getD_zipWith h0 hr.symm]
    rfl

omit h0 [Add α] in
/-- Series of at most one element, extended to one. -/
theorem flatten_map_pad_one {vs : List (List α)} (h : ∀ v ∈ vs, v.length ≤ 1) :
    (vs.map (pad 1)).flatten = vs.map (·.getD 0 0) := by
  induction vs with
  | nil => rfl
  | cons v vs ih =>
    obtain ⟨hv, hvs⟩ := List.forall_mem_cons.1 h
    rw [List.map_cons, List.flatten_cons, ih hvs, List.map_cons]
    rcases v with _ | ⟨x, _ | ⟨y, v⟩⟩
    · rfl
    · rfl
    · simp at hv

/-- An element of the sum of several series: their elements there are added from the left, or
    like those of one series, if none has more than one. -/
theorem getD_columnSums_eq (vs : List (List α)) (k : Nat) :
    (columnSums vs).getD k 0 =
      if longest vs = 1 then if k = 0 then total (vs.map (·.getD k 0)) else 0
      else leftSum (vs.map (·.getD k 0)) := by
  have hle : ∀ v ∈ vs, v.length ≤ longest vs := fun v => length_le_longest
  unfold columnSums
  simp only
  split_ifs with h1 hk
  · rw [h1] at hle
    rw [h1, hk, flatten_map_pad_one hle]
    rfl
  · exact List.getD_eq_default _ _ (Nat.one_le_iff_ne_zero.2 hk)
  · have hzero : (List.replicate (longest vs) (0 : α)).getD k 0 = 0 := by
      rw [List.getD_eq_getElem?_getD, List.getElem?_replicate]
      split_ifs <;> rfl
    rw [getD_foldl_zipWith h0 _ _ length_of_mem_map_pad, hzero, List.map_map]
    exact congrArg (List.foldl (· + ·) 0) (List.map_congr_left fun v _ => getD_pad _ v k)

omit h0 [Add α] in
/-- No series reaches further than the longest one. -/
theorem map_getD_eq_zero {vs : List (List α)} {k : Nat} (hk : longest vs ≤ k) :
    ∀ x ∈ vs.map (·.getD k 0), x = 0 := by
  rw [List.forall_mem_map]
  exact fun v hv => List.getD_eq_default v 0 ((length_le_longest hv).trans hk)

end

section
variable {α : Type} [AddCommMonoid α]

/-- **Each element of the sum of several series** is the sum of their elements there. -/
theorem getD_columnSums (vs : List (List α)) (k : Nat) :
    (columnSums vs).getD k 0 = (vs.map (·.getD k 0)).sum := by
  rw [getD_columnSums_eq (add_zero 0)]
  split_ifs with h1 hk
  · exact total_eq_sum _
  · exact (List.sum_eq_zero (map_getD_eq_zero (h1.le.trans (Nat.one_le_iff_ne_zero.2 hk)))).symm
  · exact leftSum_eq_sum _

theorem total_eq_zero_iff [PartialOrder α] [IsOrderedAddMonoid α] {v : List α}
    (h : ∀ x ∈ v, 0 ≤ x) : total v = 0 ↔ ∀ k, v.getD k 0 = 0 := by
  rw [total_eq_sum, forall_getD_iff (P := fun x : α => x = 0) rfl]
  exact ⟨List.all_zero_of_le_zero_le_of_sum_eq_zero h, List.sum_eq_zero⟩

end

end PrimaryEnergy.Series
