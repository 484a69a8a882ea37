/-
  Selection of a service, over exact numbers.

  Selection keeps the components of the service and adds to them the share of the service in
  the electricity that is produced on site for no service in particular.

  * `ComponentTable.production_shared_out`: the shares of all services are parts of one whole,
    and what the selections add is the shared production again;
  * `ComponentTable.selected_production`: no service is given more electricity than there is.
    The shared production, where it is selected itself, is kept and its share is added.
-/
import Mathlib.Algebra.BigOperators.Field
import Mathlib.Algebra.Order.BigOperators.Group.Finset
import Mathlib.Algebra.Order.BigOperators.Group.List
import Mathlib.Algebra.Order.Field.Rat
import Mathlib.Data.Fintype.Basic
import Mathlib.Tactic.GCongr
import PrimaryEnergy.Component.Selection
import PrimaryEnergy.Proofs.Series.Sum

namespace PrimaryEnergy

open Series

/-! ## All services -/

theorem mem_services (s : Service) : s ∈ (Token.words : List Service) := by
  cases s <;> decide

instance : Fintype Service := ⟨⟨(Token.words : List Service), by decide⟩, mem_services⟩

theorem sum_services {α : Type} [AddCommMonoid α] (f : Service → α) :
    ((Token.words : List Service).map f).sum = ∑ s, f s := rfl

namespace Component

section
variable {α : Type} [AddCommMonoid α]

/-- Every component belongs to one service. -/
theorem sum_by_service (f : Component α → α) (rows : List (Component α)) :
    ∑ s, ((rows.filter fun c => c.service == s).map f).sum = (rows.map f).sum := by
  induction rows with
  | nil => simp
  | cons c rows ih =>
    have hc (s : Service) : (((c :: rows).filter fun c => c.service == s).map f).sum =
        (if c.service = s then f c else 0) +
          ((rows.filter fun c => c.service == s).map f).sum := by
      by_cases h : c.service = s <;> simp [h]
    simp [hc, Finset.sum_add_distrib, ih]

theorem grandTotal_eq_sum (rows : List (Component α)) :
    grandTotal rows = (rows.map fun c => c.values.sum).sum := by
  rw [grandTotal, leftSum_eq_sum]
  exact congrArg List.sum (List.map_congr_left fun c _ => leftSum_eq_sum c.values)

theorem sum_grandTotal (rows : List (Component α)) :
    ∑ s, grandTotal (rows.filter fun c => c.service == s) = grandTotal rows := by
  simp only [grandTotal_eq_sum, sum_by_service]

end

/-! ## Shares -/

section
variable {α : Type} [Field α] [LinearOrder α] [IsStrictOrderedRing α]
  {rows : List (Component α)} {s : Service}

theorem grandTotal_nonneg (h : ∀ c ∈ rows, ∀ v ∈ c.values, 0 ≤ v) : 0 ≤ grandTotal rows := by
  rw [grandTotal_eq_sum]
  apply List.sum_nonneg
  rw [List.forall_mem_map]
  intro c hc
  exact List.sum_nonneg (h c hc)

theorem electricityShare_nonneg : 0 ≤ electricityShare rows s := by
  unfold electricityShare
  simp only
  split_ifs with h
  · exact (div_pos h.2 h.1).le
  · exact le_rfl

theorem electricityShare_eq_zero (h : ¬ 0 < electricityShare rows s) :
    electricityShare rows s = 0 :=
  le_antisymm (not_lt.1 h) electricityShare_nonneg

section
variable (h : ∀ c ∈ electricityUse rows, ∀ v ∈ c.values, 0 ≤ v)
include h

/-- The share is a quotient also where it is set to zero. -/
theorem electricityShare_eq (s : Service) :
    electricityShare rows s =
      grandTotal ((electricityUse rows).filter fun c => c.service == s) /
        grandTotal (electricityUse rows) := by
  have hwhole := grandTotal_nonneg h
  have hpart : 0 ≤ grandTotal ((electricityUse rows).filter fun c => c.service == s) :=
    grandTotal_nonneg fun c hc => h c (List.mem_filter.1 hc).1
  unfold electricityShare
  simp only
  split_ifs with hpos
  · rfl
  · rcases hwhole.eq_or_lt with h0 | hlt
    · rw [← h0, div_zero]
    · have h0 := hpart.eq_or_lt.resolve_right fun hp => hpos ⟨hlt, hp⟩
      rw [← h0, zero_div]

theorem sum_electricityShare (hpos : 0 < grandTotal (electricityUse rows)) :
    ∑ s, electricityShare rows s = 1 := by
  simp only [electricityShare_eq h]
  rw [← Finset.sum_div, sum_grandTotal, div_self hpos.ne']

theorem electricityShare_le_one : electricityShare rows s ≤ 1 := by
  have hpart (s : Service) :
      0 ≤ grandTotal ((electricityUse rows).filter fun c => c.service == s) :=
    grandTotal_nonneg fun c hc => h c (List.mem_filter.1 hc).1
  rw [electricityShare_eq h]
  refine div_le_one_of_le₀ ?_ (grandTotal_nonneg h)
  rw [← sum_grandTotal (electricityUse rows)]
  exact Finset.single_le_sum (fun s _ => hpart s) (Finset.mem_univ s)

end

end

end Component

/-! ## What selection adds -/

namespace ComponentTable

open Component

section
variable {α : Type} [Field α] [LinearOrder α]

/-- The components that selection adds to those of the service. -/
def added (t : ComponentTable α) (s : Service) : List (Component α) :=
  (t.select s).rows.drop (t.rows.filter fun c => c.service == s).length

/-- The series that selection adds for the shared production at a place, if any. -/
def addedSeries (t : ComponentTable α) (i : Nat) (s : Service) : List α :=
  ((t.added s)[i]?.map (·.values)).getD []

theorem added_eq_reassigned (t : ComponentTable α) (s : Service) :
    t.added s = reassigned t.rows s :=
  List.drop_left

variable {t : ComponentTable α} {i : Nat} {r : Component α}

theorem addedSeries_eq (hr : (sharedProduction t.rows)[i]? = some r) (s : Service) :
    t.addedSeries i s =
      if 0 < electricityShare t.rows s then scale (electricityShare t.rows s) r.values else [] := by
  rw [addedSeries, added_eq_reassigned, reassigned]
  split_ifs with h
  · rw [List.getElem?_map, hr]; rfl
  · rfl

variable [IsStrictOrderedRing α]

theorem getD_addedSeries (hr : (sharedProduction t.rows)[i]? = some r) (s : Service) (k : Nat) :
    (t.addedSeries i s).getD k 0 = r.values.getD k 0 * electricityShare t.rows s := by
  rw [addedSeries_eq hr]
  split_ifs with h
  · exact getD_scale _ _ k
  · rw [electricityShare_eq_zero h, mul_zero]; rfl

/-- One of the services has a share, and so is given a series of full length. -/
theorem longest_addedSeries (hr : (sharedProduction t.rows)[i]? = some r)
    (hone : ∑ s, electricityShare t.rows s = 1) :
    longest ((Token.words : List Service).map (t.addedSeries i)) = r.values.length := by
  apply le_antisymm
  · rw [longest_le_iff, List.forall_mem_map]
    intro s _
    rw [addedSeries_eq hr]
    split_ifs
    · rw [length_scale]
    · exact Nat.zero_le _
  · obtain ⟨s, -, hs⟩ : ∃ s ∈ Finset.univ, electricityShare t.rows s ≠ 0 :=
      Finset.exists_ne_zero_of_sum_ne_zero (by rw [hone]; exact one_ne_zero)
    have hpos : 0 < electricityShare t.rows s := electricityShare_nonneg.lt_of_ne' hs
    have hlen : (t.addedSeries i s).length = r.values.length := by
      rw [addedSeries_eq hr, if_pos hpos, length_scale]
    rw [← hlen]
    exact length_le_longest (List.mem_map_of_mem (mem_services s))

/-- **Production for no service in particular is shared out**: the shares of all services are
    parts of one whole, and what selection adds for a production adds up to it again. -/
theorem production_shared_out
    (hn : ∀ c ∈ electricityUse t.rows, ∀ v ∈ c.values, 0 ≤ v)
    (hpos : 0 < grandTotal (electricityUse t.rows)) :
    (∀ s, 0 ≤ electricityShare t.rows s ∧ electricityShare t.rows s ≤ 1) ∧
    ∑ s, electricityShare t.rows s = 1 ∧
    ∀ i r, (sharedProduction t.rows)[i]? = some r →
      columnSums ((Token.words : List Service).map (t.addedSeries i)) = r.values := by
  have hone := sum_electricityShare hn hpos
  refine ⟨?_, hone, ?_⟩
  · intro s
    exact ⟨electricityShare_nonneg, electricityShare_le_one hn⟩
  · intro i r hr
    apply ext_getD
    · rw [length_columnSums, longest_addedSeries hr hone]
    · intro k
      calc (columnSums ((Token.words : List Service).map (t.addedSeries i))).getD k 0
          = ∑ s, (t.addedSeries i s).getD k 0 := by
            rw [getD_columnSums, List.map_map, ← sum_services]; rfl
        _ = ∑ s, r.values.getD k 0 * electricityShare t.rows s :=
            Finset.sum_congr rfl fun s _ => getD_addedSeries hr s k
        _ = r.values.getD k 0 * ∑ s, electricityShare t.rows s := (Finset.mul_sum ..).symm
        _ = r.values.getD k 0 := by rw [hone, mul_one]

end

/-- Two services that use electricity, and electricity produced for no service in particular. -/
def sharedRoof : ComponentTable ℚ :=
  ⟨[], [⟨.electricity, .assessedUse, .hotWater, [10, 10], ""⟩,
    ⟨.electricity, .assessedUse, .heating, [30, 30], ""⟩,
    ⟨.electricity, .onsiteProduction, .undefined, [8, 4], "PV"⟩]⟩

theorem production_shared_out_sharedRoof :
    0 < grandTotal (electricityUse sharedRoof.rows) ∧
      ∑ s, electricityShare sharedRoof.rows s = 1 ∧
      columnSums ((Token.words : List Service).map (sharedRoof.addedSeries 0)) = [8, 4] := by
  have hn : ∀ c ∈ electricityUse sharedRoof.rows, ∀ v ∈ c.values, 0 ≤ v := by decide +kernel
  have hpos : 0 < grandTotal (electricityUse sharedRoof.rows) := by decide +kernel
  obtain ⟨-, hone, hadded⟩ := production_shared_out hn hpos
  exact ⟨hpos, hone, hadded 0 _ rfl⟩

end ComponentTable

/-! ## Electricity produced on site -/

namespace Component

section
variable {α : Type}

/-- Whether a component is electricity produced on site. -/
def isOnsiteElectricity (c : Component α) : Bool :=
  c.carrier == .electricity && c.flow == .onsiteProduction

/-- The electricity that is produced on site in a time step. -/
def onsiteElectricity [Zero α] [Add α] (rows : List (Component α)) (k : Nat) : α :=
  (columnSums ((rows.filter isOnsiteElectricity).map (·.values))).getD k 0

/-- The electricity that is produced on site for a service in a time step. -/
def onsiteElectricityFor [Zero α] [Add α] (rows : List (Component α)) (s : Service) (k : Nat) : α :=
  onsiteElectricity (rows.filter fun c => c.service == s) k

theorem sharedProduction_eq (rows : List (Component α)) :
    sharedProduction rows =
      (rows.filter fun c => c.service == .undefined).filter isOnsiteElectricity := by
  rw [List.filter_filter]
  rfl

end

section
variable {α : Type} [AddCommMonoid α]

theorem onsiteElectricity_eq_sum (rows : List (Component α)) (k : Nat) :
    onsiteElectricity rows k =
      ((rows.filter isOnsiteElectricity).map fun c => c.values.getD k 0).sum := by
  rw [onsiteElectricity, getD_columnSums, List.map_map]
  rfl

theorem onsiteElectricity_append (rows rows' : List (Component α)) (k : Nat) :
    onsiteElectricity (rows ++ rows') k = onsiteElectricity rows k + onsiteElectricity rows' k := by
  simp only [onsiteElectricity_eq_sum, List.filter_append, List.map_append, List.sum_append]

theorem sum_onsiteElectricityFor (rows : List (Component α)) (k : Nat) :
    ∑ s, onsiteElectricityFor rows s k = onsiteElectricity rows k := by
  simp only [onsiteElectricityFor, onsiteElectricity_eq_sum]
  rw [← sum_by_service _ (rows.filter isOnsiteElectricity)]
  refine Finset.sum_congr rfl fun s _ => ?_
  rw [List.filter_comm]

end

section
variable {α : Type} [Field α] [LinearOrder α] [IsStrictOrderedRing α]
  {rows : List (Component α)}

theorem onsiteElectricityFor_nonneg (h : ∀ c ∈ rows, ∀ v ∈ c.values, 0 ≤ v) (s : Service)
    (k : Nat) : 0 ≤ onsiteElectricityFor rows s k := by
  rw [onsiteElectricityFor, onsiteElectricity_eq_sum]
  apply List.sum_nonneg
  rw [List.forall_mem_map]
  intro c hc
  simp only [List.mem_filter] at hc
  exact getD_nonneg (h c hc.1.1) k

/-- What is reassigned to a service is its share of the shared production. -/
theorem onsiteElectricity_reassigned (rows : List (Component α)) (s : Service) (k : Nat) :
    onsiteElectricity (reassigned rows s) k =
      electricityShare rows s * onsiteElectricityFor rows .undefined k := by
  have hshared : onsiteElectricityFor rows .undefined k =
      ((sharedProduction rows).map fun c => c.values.getD k 0).sum := by
    rw [onsiteElectricityFor, onsiteElectricity_eq_sum, sharedProduction_eq]
  rw [onsiteElectricity_eq_sum, hshared, reassigned]
  split_ifs with h
  · have hall : ∀ c ∈ (sharedProduction rows).map (reassign s (electricityShare rows s)),
        isOnsiteElectricity c = true :=
      List.forall_mem_map.2 fun _ _ => rfl
    rw [List.filter_eq_self.2 hall, List.map_map, ← List.sum_map_mul_left]
    refine congrArg List.sum (List.map_congr_left fun c _ => ?_)
    exact (getD_scale _ c.values k).trans (mul_comm _ _)
  · rw [electricityShare_eq_zero h, zero_mul]; rfl

end

end Component

namespace ComponentTable

open Component

variable {α : Type} [Field α] [LinearOrder α] [IsStrictOrderedRing α] {t : ComponentTable α}

theorem onsiteElectricity_select (t : ComponentTable α) (s : Service) (k : Nat) :
    onsiteElectricity (t.select s).rows k = onsiteElectricityFor t.rows s k +
      electricityShare t.rows s * onsiteElectricityFor t.rows .undefined k := by
  rw [← onsiteElectricity_reassigned]
  exact onsiteElectricity_append _ _ k

/-- **Selection of a service invents no production**: each service is given a part of what there
    is.  The shared production, where it is selected itself, is kept and its share is added:
    that is more than there is exactly if the share exceeds what the other services produce. -/
theorem selected_production (hn : ∀ c ∈ t.rows, ∀ v ∈ c.values, 0 ≤ v) (k : Nat) :
    (∀ s, s ≠ .undefined →
      onsiteElectricity (t.select s).rows k ≤ onsiteElectricity t.rows k) ∧
    onsiteElectricity (t.select .undefined).rows k =
      (1 + electricityShare t.rows .undefined) * onsiteElectricityFor t.rows .undefined k ∧
    (onsiteElectricity (t.select .undefined).rows k ≤ onsiteElectricity t.rows k ↔
      electricityShare t.rows .undefined * onsiteElectricityFor t.rows .undefined k ≤
        ∑ s ∈ Finset.univ.erase .undefined, onsiteElectricityFor t.rows s k) := by
  have hfor := fun s => onsiteElectricityFor_nonneg hn s k
  refine ⟨?_, ?_, ?_⟩
  · intro s hs
    have hle : electricityShare t.rows s ≤ 1 :=
      electricityShare_le_one fun c hc => hn c (List.mem_filter.1 hc).1
    calc onsiteElectricity (t.select s).rows k
        = onsiteElectricityFor t.rows s k +
            electricityShare t.rows s * onsiteElectricityFor t.rows .undefined k :=
          onsiteElectricity_select t s k
      _ ≤ onsiteElectricityFor t.rows s k + onsiteElectricityFor t.rows .undefined k := by
          gcongr
          exact mul_le_of_le_one_left (hfor _) hle
      _ = ∑ s' ∈ {s, .undefined}, onsiteElectricityFor t.rows s' k := by
          rw [Finset.sum_pair hs]
      _ ≤ ∑ s', onsiteElectricityFor t.rows s' k :=
          Finset.sum_le_univ_sum_of_nonneg hfor
      _ = onsiteElectricity t.rows k := sum_onsiteElectricityFor t.rows k
  · rw [onsiteElectricity_select, one_add_mul]
  · rw [onsiteElectricity_select, ← sum_onsiteElectricityFor t.rows,
      ← Finset.add_sum_erase _ _ (Finset.mem_univ Service.undefined)]
    exact add_le_add_iff_left _

/-- Electricity that is used and produced for no service in particular. -/
def undefinedRoof : ComponentTable ℚ :=
  ⟨[], [⟨.electricity, .assessedUse, .undefined, [10, 10], ""⟩,
    ⟨.electricity, .onsiteProduction, .undefined, [8, 4], "PV"⟩]⟩

theorem selected_production_sharedRoof :
    onsiteElectricity (sharedRoof.select .heating).rows 0 ≤ onsiteElectricity sharedRoof.rows 0 ∧
      onsiteElectricity (undefinedRoof.select .undefined).rows 0 =
        (1 + electricityShare undefinedRoof.rows .undefined) *
          onsiteElectricityFor undefinedRoof.rows .undefined 0 := by
  have hn : ∀ c ∈ sharedRoof.rows, ∀ v ∈ c.values, 0 ≤ v := by decide +kernel
  have hn' : ∀ c ∈ undefinedRoof.rows, ∀ v ∈ c.values, 0 ≤ v := by decide +kernel
  exact ⟨(selected_production hn 0).1 .heating nofun, (selected_production hn' 0).2.1⟩

/-- The shared production is counted once more if it is selected itself. -/
theorem not_onsiteElectricity_select_le :
    ¬ ∀ t : ComponentTable ℚ, (∀ c ∈ t.rows, ∀ v ∈ c.values, 0 ≤ v) →
      ∀ s k, onsiteElectricity (t.select s).rows k ≤ onsiteElectricity t.rows k := by
  intro h
  have h0 := h undefinedRoof (by decide +kernel) .undefined 0
  exact absurd h0 (by decide +kernel)

end ComponentTable

end PrimaryEnergy
