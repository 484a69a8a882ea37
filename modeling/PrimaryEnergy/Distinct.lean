/-
  The distinct and the repeated elements of a list.

  * `distinct` keeps the first occurrence of every element (`mem_distinct`,
    `nodup_distinct`);
  * `repeated` are the elements that occur more than once, each once, in the order of
    their first occurrence (`mem_repeated`, `nodup_repeated`).
-/
namespace PrimaryEnergy

variable {τ : Type} [DecidableEq τ]

/-- The distinct elements of a list, in the order of their first occurrence. -/
def distinct : List τ → List τ
  | [] => []
  | a :: l => a :: (distinct l).filter (· ≠ a)

theorem mem_distinct {a : τ} {l : List τ} : a ∈ distinct l ↔ a ∈ l := by
  induction l with
  | nil => simp [distinct]
  | cons b l ih => by_cases h : a = b <;> simp [distinct, ih, h]

theorem nodup_distinct (l : List τ) : (distinct l).Nodup := by
  induction l with
  | nil => exact List.nodup_nil
  | cons b l ih =>
    rw [distinct, List.nodup_cons]
    exact ⟨fun h => by simp [List.mem_filter] at h, List.Pairwise.filter _ ih⟩

theorem distinct_append (l l' : List τ) :
    distinct (l ++ l') = distinct l ++ (distinct l').filter (· ∉ l) := by
  induction l with
  | nil => exact (List.filter_eq_self.2 fun _ _ => by simp).symm
  | cons a l ih =>
    simp only [List.cons_append, distinct, ih, List.filter_append, List.filter_filter]
    congr 3
    funext b
    simp [not_or]

/-- The elements that occur more than once, in the order of their first occurrence. -/
def repeated (l : List τ) : List τ := (distinct l).filter fun a => 1 < l.count a

theorem nodup_repeated (l : List τ) : (repeated l).Nodup :=
  List.Pairwise.filter _ (nodup_distinct l)

theorem mem_repeated {a : τ} {l : List τ} : a ∈ repeated l ↔ 1 < l.count a := by
  simp only [repeated, List.mem_filter, mem_distinct, decide_eq_true_eq]
  exact ⟨And.right, fun h => ⟨List.count_pos_iff.1 (by omega), h⟩⟩

end PrimaryEnergy
