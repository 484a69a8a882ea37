/-
  The order of first occurrence.

  * `distinct_filter` and `pairwise_idxOf_distinct`: the distinct elements of a list are in the
    order in which they first occur, also after a choice;
  * `ListsRepeated` says which list the repeated elements are: there is exactly one such list
    (`listsRepeated_repeated`, `ListsRepeated.eq_repeated`);
  * `repeated_append` and `repeated_filter`: new elements add nothing to it, and a choice takes
    out what is not chosen.
-/
import Mathlib.Data.List.Basic
import PrimaryEnergy.Distinct

namespace PrimaryEnergy

variable {τ : Type} [DecidableEq τ] {l l' r r' : List τ}

/-! ## Distinct elements -/

theorem distinct_filter (p : τ → Bool) (l : List τ) :
    distinct (l.filter p) = (distinct l).filter p := by
  induction l with
  | nil => rfl
  | cons a l ih =>
    by_cases ha : p a = true
    · rw [List.filter_cons_of_pos ha, distinct, distinct, List.filter_cons_of_pos ha, ih,
        List.filter_comm]
    · rw [List.filter_cons_of_neg ha, distinct, List.filter_cons_of_neg ha, ih, List.filter_filter]
      -- the element that is left out would not have been chosen
      refine List.filter_congr fun b _ => ?_
      by_cases hb : b = a
      · simp [hb, ha]
      · simp [hb]

theorem pairwise_idxOf_distinct (l : List τ) :
    (distinct l).Pairwise fun a b => l.idxOf a < l.idxOf b := by
  induction l with
  | nil => exact List.Pairwise.nil
  | cons c l ih =>
    have hne : ∀ a ∈ (distinct l).filter (· ≠ c), c ≠ a := fun a ha =>
      Ne.symm (by simpa using (List.mem_filter.1 ha).2)
    rw [distinct, List.pairwise_cons]
    constructor
    · intro b hb
      rw [List.idxOf_cons_self, List.idxOf_cons_ne l (hne b hb)]
      exact Nat.succ_pos _
    · refine (ih.filter _).imp_of_mem fun {a b} ha hb hab => ?_
      rw [List.idxOf_cons_ne l (hne a ha), List.idxOf_cons_ne l (hne b hb)]
      exact Nat.succ_lt_succ hab

/-! ## Repeated elements -/

/-- The list `r` holds the elements that occur at least twice in `l`. -/
structure ListsRepeated (l r : List τ) : Prop where
  mem_iff : ∀ a, a ∈ r ↔ 2 ≤ l.count a
  /-- Each is listed once. -/
  nodup : r.Nodup
  /-- They are in the order of their first occurrence. -/
  ordered : r.Pairwise fun a b => l.idxOf a < l.idxOf b

theorem listsRepeated_repeated (l : List τ) : ListsRepeated l (repeated l) where
  mem_iff _ := mem_repeated
  nodup := nodup_repeated l
  ordered := (pairwise_idxOf_distinct l).filter _

theorem ListsRepeated.eq_repeated (h : ListsRepeated l r) : r = repeated l := by
  have h' := listsRepeated_repeated l
  have hperm : r.Perm (repeated l) := (List.perm_ext_iff_of_nodup h.nodup h'.nodup).2 fun a =>
    (h.mem_iff a).trans (h'.mem_iff a).symm
  refine hperm.eq_of_pairwise (fun a b _ _ hab hba => ?_) h.ordered h'.ordered
  exact absurd hab (Nat.lt_asymm hba)

/-- New elements, none of them twice, are not repeated. -/
theorem repeated_append (hnodup : l'.Nodup) (hnew : ∀ a ∈ l', a ∉ l) :
    repeated (l ++ l') = repeated l := by
  have h := listsRepeated_repeated l
  have hlists : ListsRepeated (l ++ l') (repeated l) := by
    refine ⟨fun a => ?_, h.nodup, ?_⟩
    · rw [h.mem_iff, List.count_append]
      by_cases ha : a ∈ l'
      · rw [List.count_eq_zero.2 (hnew a ha), hnodup.count, if_pos ha]
        omega
      · rw [List.count_eq_zero.2 ha, Nat.add_zero]
    · refine h.ordered.imp_of_mem fun {a b} ha hb hab => ?_
      have hmem : ∀ a ∈ repeated l, a ∈ l := fun a ha =>
        mem_distinct.1 (List.mem_filter.1 ha).1
      rwa [List.idxOf_append_of_mem (hmem a ha), List.idxOf_append_of_mem (hmem b hb)]
  exact hlists.eq_repeated.symm

theorem repeated_filter (p : τ → Bool) (l : List τ) :
    repeated (l.filter p) = (repeated l).filter p := by
  rw [repeated, distinct_filter, repeated, List.filter_comm p]
  refine List.filter_congr fun a ha => ?_
  have hcount : (l.filter p).count a = l.count a := List.count_filter (List.mem_filter.1 ha).2
  rw [hcount]

end PrimaryEnergy
