/-
  Balancing what has been balanced, over exact numbers of any sign.

  Without production all of the use is lacking, and its steps may add up to zero although some
  are not zero; with production only what is left above it is lacking.  The second time a service
  for which something has been added is always of the second kind.

  * `use_le_production_add_deficit`: with its deficit, the production of a service covers its use;
  * `missingFor_of_covered`: a service whose production covers its use lacks nothing;
  * `balance_again`: so nothing is lacking after balancing.
-/
import PrimaryEnergy.Proofs.Component.Locality

namespace PrimaryEnergy

open Series

namespace Component

variable {α : Type} [AddCommGroup α] [LinearOrder α] {rows : List (Component α)} {s : Service}

/-- The production of a service after balancing. -/
theorem ambientEnergy_balance_of_some {c : Component α} (h : missingFor rows s = some c) (k : ℕ) :
    ambientEnergy .production (rows ++ missingProduction rows) s k =
      ambientEnergy .production rows s k + (deficit rows s).getD k 0 := by
  rw [ambientEnergy_eq_sum, ambientValues, ambientSeries_balance_of_some h, List.map_append,
    List.sum_append, List.map_singleton, List.sum_singleton, ambientEnergy_eq_sum]
  rfl

variable [IsOrderedAddMonoid α]

/-- Production and deficit cover the use, also where the deficit is negative. -/
theorem use_le_production_add_deficit (rows : List (Component α)) (s : Service) (k : ℕ) :
    ambientEnergy .consumption rows s k ≤
      ambientEnergy .production rows s k + (deficit rows s).getD k 0 := by
  by_cases hnone : ambientProduction rows s = []
  · rw [getD_deficit_of_unproduced hnone, ambientEnergy_of_unproduced hnone, zero_add]
  · rw [getD_deficit_of_produced hnone, ← sub_le_iff_le_add']
    exact le_max_left _ _

/-- A service with some production lacks nothing if the use is covered in every step. -/
theorem missingFor_of_covered (hp : ambientProduction rows s ≠ [])
    (h : ∀ k, ambientEnergy .consumption rows s k ≤ ambientEnergy .production rows s k) :
    missingFor rows s = none := by
  have hzero : ∀ k, (deficit rows s).getD k 0 = 0 := fun k => by
    rw [getD_deficit_of_produced hp, max_eq_right (sub_nonpos.2 (h k))]
  have htotal : Series.total (deficit rows s) = 0 := by
    rw [total_eq_sum]
    exact List.sum_eq_zero ((forall_getD_iff (P := fun x : α => x = 0) rfl).1 hzero)
  rw [missingFor, htotal, beq_self_eq_true, Bool.or_true, if_pos rfl]

/-- After balancing, no service lacks anything: either nothing has been added for it, and it is as
    before, or its production covers its use. -/
theorem missingFor_balance (rows : List (Component α)) (s : Service) :
    missingFor (rows ++ missingProduction rows) s = none := by
  cases hm : missingFor rows s with
  | none => rw [missingFor_congr (ambientSeries_balance_of_none hm), hm]
  | some c =>
    have hseries := ambientSeries_balance_of_some hm
    refine missingFor_of_covered (fun hnone => ?_) fun k => ?_
    · exact List.append_ne_nil_of_right_ne_nil _ (List.cons_ne_nil _ _) (hseries.symm.trans hnone)
    · rw [ambientEnergy_congr (ambientSeries_consumption_balance rows s),
        ambientEnergy_balance_of_some hm]
      exact use_le_production_add_deficit rows s k

end Component

namespace ComponentTable

open Component

/-- **Balancing is idempotent**, whatever the signs of the values and the lengths of the series are:
    a balanced table lacks nothing, so balancing it again changes nothing. -/
theorem balance_again {α : Type} [AddCommGroup α] [LinearOrder α] [IsOrderedAddMonoid α]
    (t : ComponentTable α) :
    missingProduction t.balance.rows = [] ∧ t.balance.balance = t.balance := by
  have hnone : missingProduction t.balance.rows = [] :=
    List.filterMap_eq_nil_iff.2 fun s _ => missingFor_balance t.rows s
  refine ⟨hnone, ?_⟩
  rw [balance.eq_def t.balance, hnone, List.append_nil]

/-- Ambient energy with steps that are negative: all of it is lacking for heating, for hot water it
    adds up to zero, and for cooling a part is produced. -/
def reversedPumps : ComponentTable ℚ :=
  ⟨[], [⟨.ambient, .assessedUse, .heating, [5, -2], ""⟩,
    ⟨.ambient, .assessedUse, .hotWater, [3, -3], ""⟩,
    ⟨.ambient, .otherUse, .cooling, [4, -1, 2], ""⟩,
    ⟨.ambient, .onsiteProduction, .cooling, [1, 3], ""⟩]⟩

theorem balance_again_reversedPumps :
    (missingProduction reversedPumps.rows).map (·.values) = [[5, -2], [3, 0, 2]] ∧
    missingProduction reversedPumps.balance.rows = [] ∧
    reversedPumps.balance.balance = reversedPumps.balance :=
  ⟨by decide +kernel, balance_again reversedPumps⟩

end ComponentTable

end PrimaryEnergy
