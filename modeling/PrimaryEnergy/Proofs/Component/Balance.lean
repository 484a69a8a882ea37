/-
  Balance of ambient energy, over exact numbers.

  Where nothing is negative, the deficit of a service is its use less its production, step by
  step and never below zero, and its total is zero only if there is none in any step.

  * `getD_deficit` and `missingFor_eq`: what a service lacks, and which services lack
    something;
  * `ambientEnergy_missingProduction`: what is added for a service;
  * `ComponentTable.balance_closes_deficit`: balancing adds exactly what is missing.
-/
import Mathlib.Algebra.Order.Field.Rat
import Mathlib.Data.List.Basic
import PrimaryEnergy.Component.Balance
import PrimaryEnergy.Proofs.Series.Sum

namespace PrimaryEnergy

open Series

namespace Component

/-! ## Use and production -/

section
variable {α : Type} [AddCommMonoid α]

/-- The ambient energy that is used by a service, or produced for it, in a time step. -/
def ambientEnergy (f : FlowType) (rows : List (Component α)) (s : Service) (k : Nat) : α :=
  ((rows.filter fun c => c.carrier = .ambient ∧ c.service = s ∧ c.flow.type = f).map
    fun c => c.values.getD k 0).sum

theorem ambientEnergy_eq_zero {f : FlowType} {rows : List (Component α)} {s : Service}
    (h : ∀ c ∈ rows, c.carrier = .ambient → c.service = s → c.flow.type ≠ f) (k : Nat) :
    ambientEnergy f rows s k = 0 := by
  have hnil : (rows.filter fun c => c.carrier = .ambient ∧ c.service = s ∧ c.flow.type = f) = [] :=
    List.filter_eq_nil_iff.2 fun c hc hp => by
      obtain ⟨hk, hs, hf⟩ := of_decide_eq_true hp
      exact h c hc hk hs hf
  rw [ambientEnergy, hnil]
  rfl

theorem getD_columnSums_ambientUse (rows : List (Component α)) (s : Service) (k : Nat) :
    (columnSums (ambientUse rows s)).getD k 0 = ambientEnergy .consumption rows s k := by
  rw [getD_columnSums, ambientUse, ambient, List.filter_filter, List.map_map, ambientEnergy]
  congr 3
  funext c
  simp [isConsumption, Bool.and_comm, Bool.beq_eq_decide_eq]

theorem getD_columnSums_ambientProduction (rows : List (Component α)) (s : Service) (k : Nat) :
    (columnSums (ambientProduction rows s)).getD k 0 = ambientEnergy .production rows s k := by
  rw [getD_columnSums, ambientProduction, ambient, List.filter_filter, List.map_map, ambientEnergy]
  congr 3
  funext c
  simp [isProduction, Bool.and_comm, Bool.beq_eq_decide_eq]

theorem ambientEnergy_of_unproduced {rows : List (Component α)} {s : Service}
    (h : ambientProduction rows s = []) (k : Nat) : ambientEnergy .production rows s k = 0 := by
  rw [← getD_columnSums_ambientProduction, h]
  rfl

theorem ambientEnergy_nonneg [PartialOrder α] [IsOrderedAddMonoid α] {rows : List (Component α)}
    (h : ∀ c ∈ rows, ∀ v ∈ c.values, 0 ≤ v) (f : FlowType) (s : Service) (k : Nat) :
    0 ≤ ambientEnergy f rows s k := by
  apply List.sum_nonneg
  rw [List.forall_mem_map]
  intro c hc
  exact getD_nonneg (h c (List.mem_filter.1 hc).1) k

end

/-! ## What a service lacks -/

section
variable {α : Type} [Zero α] [Add α] [Sub α] [LT α] [DecidableLT α] {rows : List (Component α)}
  {s : Service}

/-- Without production, all that is used is lacking, whatever its sign. -/
theorem deficit_of_none (h : ambientProduction rows s = []) :
    deficit rows s = columnSums (ambientUse rows s) := by
  unfold deficit
  rw [h]

/-- With production, what is left of the use above it is lacking. -/
theorem deficit_of_ne (h : ambientProduction rows s ≠ []) :
    deficit rows s =
      (Series.sub (columnSums (ambientUse rows s)) (columnSums (ambientProduction rows s))).map
        clamp := by
  unfold deficit
  split
  · rename_i hnone
    exact absurd hnone h
  · rfl

theorem length_deficit (rows : List (Component α)) (s : Service) :
    (deficit rows s).length = longest (ambientUse rows s ++ ambientProduction rows s) := by
  by_cases h : ambientProduction rows s = []
  · rw [deficit_of_none h, length_columnSums, h, List.append_nil]
  · rw [deficit_of_ne h, List.length_map, Series.sub, length_zipPadded, length_columnSums,
      length_columnSums, longest_append]

end

theorem of_missingFor {α : Type} [Zero α] [Add α] [Sub α] [LT α] [DecidableLT α] [BEq α]
    {rows : List (Component α)} {s : Service} {c : Component α} (h : missingFor rows s = some c) :
    ambientUse rows s ≠ [] ∧ c = ⟨.ambient, .onsiteProduction, s, deficit rows s, balanceNote⟩ := by
  unfold missingFor at h
  split at h
  · cases h
  · rename_i hused
    refine ⟨fun hnil => hused ?_, (Option.some.inj h).symm⟩
    rw [hnil]
    rfl

section
variable {α : Type} [AddCommGroup α] [LinearOrder α] {rows : List (Component α)} {s : Service}

/-- Whether a service uses more ambient energy than is produced for it, in some time step. -/
def IsShort (rows : List (Component α)) (s : Service) : Prop :=
  ∃ k, ambientEnergy .production rows s k < ambientEnergy .consumption rows s k

/-- No step has to be looked at that none of the series reaches. -/
theorem isShort_iff : IsShort rows s ↔
    ∃ k < longest (ambientUse rows s ++ ambientProduction rows s),
      ambientEnergy .production rows s k < ambientEnergy .consumption rows s k := by
  constructor
  · rintro ⟨k, hk⟩
    refine ⟨k, ?_, hk⟩
    by_contra hlen
    rw [longest_append, not_lt, Nat.max_le] at hlen
    rw [← getD_columnSums_ambientUse, ← getD_columnSums_ambientProduction,
      List.getD_eq_default _ _ (by rw [length_columnSums]; exact hlen.2),
      List.getD_eq_default _ _ (by rw [length_columnSums]; exact hlen.1)] at hk
    exact lt_irrefl _ hk
  · rintro ⟨k, -, hk⟩
    exact ⟨k, hk⟩

instance (rows : List (Component α)) (s : Service) : Decidable (IsShort rows s) :=
  decidable_of_iff _ isShort_iff.symm

/-- A service that is short uses ambient energy. -/
theorem mem_services_of_isShort (hs : IsShort rows s) : s ∈ services (ambient rows) := by
  obtain ⟨k, hk⟩ := hs
  by_contra hmem
  have hnone (f : FlowType) : ambientEnergy f rows s k = 0 :=
    ambientEnergy_eq_zero (fun c hc hca hcs _ => hmem (mem_distinct.2
      (List.mem_map.2 ⟨c, List.mem_filter.2 ⟨hc, by simpa using hca⟩, hcs⟩))) k
  rw [hnone, hnone] at hk
  exact lt_irrefl _ hk

/-- The services that are short, in the order in which they first occur. -/
def shortServices (rows : List (Component α)) : List Service :=
  (services (ambient rows)).filter fun s => IsShort rows s

theorem mem_shortServices : s ∈ shortServices rows ↔ IsShort rows s := by
  rw [shortServices, List.mem_filter, decide_eq_true_eq]
  exact and_iff_right_of_imp mem_services_of_isShort

theorem nodup_shortServices (rows : List (Component α)) : (shortServices rows).Nodup :=
  List.Pairwise.filter _ (nodup_distinct _)

/-- The production that covers the deficit of a service. -/
def supplement (rows : List (Component α)) (s : Service) : Component α :=
  ⟨.ambient, .onsiteProduction, s, deficit rows s, balanceNote⟩

theorem getD_deficit_of_unproduced (h : ambientProduction rows s = []) (k : Nat) :
    (deficit rows s).getD k 0 = ambientEnergy .consumption rows s k := by
  rw [deficit_of_none h, getD_columnSums_ambientUse]

theorem getD_deficit_of_produced (h : ambientProduction rows s ≠ []) (k : Nat) :
    (deficit rows s).getD k 0 =
      max (ambientEnergy .consumption rows s k - ambientEnergy .production rows s k) 0 := by
  rw [deficit_of_ne h, getD_map_clamp, getD_sub, getD_columnSums_ambientUse,
    getD_columnSums_ambientProduction]

variable [IsOrderedAddMonoid α]

section
variable (hn : ∀ c ∈ rows, ∀ v ∈ c.values, 0 ≤ v)
include hn

theorem getD_deficit (s : Service) (k : Nat) :
    (deficit rows s).getD k 0 =
      max (ambientEnergy .consumption rows s k - ambientEnergy .production rows s k) 0 := by
  by_cases hnone : ambientProduction rows s = []
  · -- nothing is clamped here, but nothing is below zero either
    rw [getD_deficit_of_unproduced hnone, ambientEnergy_of_unproduced hnone, sub_zero, max_eq_left]
    exact ambientEnergy_nonneg hn _ _ _
  · exact getD_deficit_of_produced hnone k

theorem total_deficit_eq_zero_iff : Series.total (deficit rows s) = 0 ↔ ¬ IsShort rows s := by
  have hnonneg : ∀ x ∈ deficit rows s, 0 ≤ x :=
    (forall_getD_iff (P := fun x : α => 0 ≤ x) le_rfl).1 fun k => by
      rw [getD_deficit hn]
      exact le_max_right _ _
  rw [total_eq_zero_iff hnonneg, IsShort, not_exists]
  refine forall_congr' fun k => ?_
  rw [getD_deficit hn, max_eq_right_iff, sub_nonpos, not_lt]

/-- What is added for a service is its deficit, if it is short. -/
theorem missingFor_eq (s : Service) :
    missingFor rows s = if IsShort rows s then some (supplement rows s) else none := by
  have hunused : ambientUse rows s = [] → ¬ IsShort rows s := by
    rintro hnil ⟨k, hk⟩
    rw [← getD_columnSums_ambientUse, hnil] at hk
    exact absurd hk (ambientEnergy_nonneg hn _ _ _).not_gt
  have hnone : ((ambientUse rows s).isEmpty || Series.total (deficit rows s) == 0) = true ↔
      ¬ IsShort rows s := by
    rw [Bool.or_eq_true, List.isEmpty_iff, beq_iff_eq, total_deficit_eq_zero_iff hn]
    exact or_iff_right_of_imp hunused
  unfold missingFor
  simp only [hnone, ite_not]
  rfl

theorem missingProduction_eq :
    missingProduction rows = (shortServices rows).map (supplement rows) := by
  rw [missingProduction, shortServices, ← List.filterMap_eq_map', List.filterMap_filter]
  refine List.filterMap_congr fun s _ => ?_
  simp only [missingFor_eq hn, decide_eq_true_eq]

/-- What is added for a service in a time step is what it lacks there. -/
theorem ambientEnergy_missingProduction (s : Service) (k : Nat) :
    ambientEnergy .production (missingProduction rows) s k =
      max (ambientEnergy .consumption rows s k - ambientEnergy .production rows s k) 0 := by
  have hown : (fun c => decide (c.carrier = .ambient ∧ c.service = s ∧
      c.flow.type = .production)) ∘ supplement rows = fun s' => decide (s' = s) := by
    funext s'
    simp [supplement, Flow.type]
  rw [missingProduction_eq hn, ambientEnergy, List.filter_map, List.map_map, hown,
    List.filter_eq, (nodup_shortServices rows).count]
  split_ifs with hs
  · rw [List.replicate_one, List.map_singleton, List.sum_singleton]
    exact getD_deficit hn s k
  · rw [mem_shortServices, IsShort, not_exists] at hs
    rw [List.replicate_zero, max_eq_right (sub_nonpos.2 (not_lt.1 (hs k)))]
    rfl

end

end

/-! ## Balanced tables -/

/-- The rows `added` are what the services lack in `rows`. -/
structure Closes {α : Type} [AddCommGroup α] [LinearOrder α] (rows added : List (Component α)) :
    Prop where
  /-- They are for the services that are short, in the order in which the services of ambient
      components first occur. -/
  services_eq : added.map (·.service) = (services (ambient rows)).filter fun s => IsShort rows s
  /-- No service has two of them. -/
  nodup : (added.map (·.service)).Nodup
  /-- They are ambient energy that is produced on site, as much as is lacking in each step that
      a series of the service reaches. -/
  production : ∀ c ∈ added, c.carrier = .ambient ∧ c.flow = .onsiteProduction ∧
    c.values.length = longest (ambientUse rows c.service ++ ambientProduction rows c.service) ∧
    ∀ k, c.values.getD k 0 = max (ambientEnergy .consumption rows c.service k -
      ambientEnergy .production rows c.service k) 0
  /-- With them, production covers the use. -/
  covered : ∀ s k, ambientEnergy .consumption rows s k ≤
    ambientEnergy .production rows s k + ambientEnergy .production added s k
  /-- Nothing is added where production covers the use already. -/
  noExcess : ∀ s k, ambientEnergy .consumption rows s k ≤ ambientEnergy .production rows s k →
    ambientEnergy .production added s k = 0

end Component

namespace ComponentTable

open Component

variable {α : Type} [AddCommGroup α] [LinearOrder α] [IsOrderedAddMonoid α] {t : ComponentTable α}

/-- **Balancing closes the deficit**: to the rows there are it adds what the services lack. -/
theorem balance_closes_deficit (hn : ∀ c ∈ t.rows, ∀ v ∈ c.values, 0 ≤ v) :
    ∃ added, t.balance = ⟨t.metadata, t.rows ++ added⟩ ∧ Closes t.rows added := by
  have hservices : (missingProduction t.rows).map (·.service) = shortServices t.rows := by
    rw [missingProduction_eq hn, List.map_map]
    exact List.map_id _
  refine ⟨missingProduction t.rows, rfl, ?_, ?_, ?_, ?_, ?_⟩
  · exact hservices
  · rw [hservices]
    exact nodup_shortServices t.rows
  · rw [missingProduction_eq hn, List.forall_mem_map]
    intro s _
    exact ⟨rfl, rfl, length_deficit t.rows s, getD_deficit hn s⟩
  · intro s k
    rw [ambientEnergy_missingProduction hn, ← sub_le_iff_le_add']
    exact le_max_left _ _
  · intro s k hk
    rw [ambientEnergy_missingProduction hn]
    exact max_eq_right (sub_nonpos.2 hk)

/-- Ambient energy for hot water, partly covered, and for heating, covered in most steps. -/
def heatPumps : ComponentTable ℚ :=
  ⟨[], [⟨.ambient, .assessedUse, .hotWater, [20, 20], ""⟩,
    ⟨.ambient, .otherUse, .heating, [3, 1, 2], ""⟩,
    ⟨.ambient, .onsiteProduction, .heating, [4, 1], ""⟩,
    ⟨.ambient, .assessedUse, .hotWater, [5], ""⟩,
    ⟨.ambient, .onsiteProduction, .cooling, [7], ""⟩]⟩

theorem balance_closes_deficit_heatPumps :
    (∀ c ∈ heatPumps.rows, ∀ v ∈ c.values, 0 ≤ v) ∧
      (services (ambient heatPumps.rows)).filter (fun s => IsShort heatPumps.rows s) =
        [.hotWater, .heating] ∧
      ∃ added, heatPumps.balance = ⟨[], heatPumps.rows ++ added⟩ ∧
        Closes heatPumps.rows added := by
  have hn : ∀ c ∈ heatPumps.rows, ∀ v ∈ c.values, 0 ≤ v := by decide +kernel
  exact ⟨hn, by decide +kernel, balance_closes_deficit hn⟩

end ComponentTable

end PrimaryEnergy
