/-
  Ambient energy of doubles.

  Balancing looks at the series of ambient energy of one service at a time.  The deficit of a
  service is what is left of the computed use above the computed production; the exact one differs
  from it by the roundings of the two sums.

  * `ambientSeries`: the series of a service, used or produced, with their exact sums
    (`exactEnergy`) and the computed ones (`computedEnergy`);
  * `ambientSeries_production_balance` and `ambientSeries_ofService`: the series after balancing
    and after the selection of a service;
  * `use_le_of_isFinite_deficit` and `le_use_of_isFinite_deficit`: production and deficit together
    are the use, up to rounding;
  * `missingFor_eq_none` and `deficit_eq_zero`: nothing is added if the deficit is zero, and only
    then.
-/
import PrimaryEnergy.Proofs.Component.Processed
import PrimaryEnergy.Proofs.Series.Rounded

namespace PrimaryEnergy

open Series Decimal

namespace Component

/-! ## Series of ambient energy -/

section
variable {α : Type} {f : FlowType} {rows : List (Component α)} {s : Service}

/-- The series of ambient energy that a service uses, or that is produced for it. -/
def ambientSeries (f : FlowType) (rows : List (Component α)) (s : Service) : List (List α) :=
  match f with
  | .consumption => ambientUse rows s
  | .production => ambientProduction rows s

/-- How many series of ambient energy a service has. -/
def ambientCount (rows : List (Component α)) (s : Service) : ℕ :=
  (ambientSeries .consumption rows s).length + (ambientSeries .production rows s).length

/-- The elements of these series in a time step. -/
def ambientValues [Zero α] (f : FlowType) (rows : List (Component α)) (s : Service) (k : ℕ) :
    List α :=
  (ambientSeries f rows s).map (·.getD k 0)

/-- Whether a component is ambient energy that the service uses, or that is produced for it. -/
def isAmbient (f : FlowType) (s : Service) (c : Component α) : Bool :=
  c.carrier == .ambient && c.service == s && c.flow.type == f

theorem ambientSeries_eq (f : FlowType) (rows : List (Component α)) (s : Service) :
    ambientSeries f rows s = (rows.filter (isAmbient f s)).map (·.values) := by
  cases f
  all_goals
    simp only [ambientSeries, ambientUse, ambientProduction, ambient, List.filter_filter]
    congr 2
    funext c
    rw [Bool.and_comm, ← Bool.and_assoc]
    rfl

theorem length_ambientSeries_le (f : FlowType) (rows : List (Component α)) (s : Service) :
    (ambientSeries f rows s).length ≤ ambientCount rows s := by
  cases f
  · exact Nat.le_add_right _ _
  · exact Nat.le_add_left _ _

theorem ambientSeries_map {β : Type} {g : Component α → Component β} {h : List α → List β}
    (hg : ∀ c, (g c).carrier = c.carrier ∧ (g c).service = c.service ∧ (g c).flow = c.flow ∧
      (g c).values = h c.values) :
    ambientSeries f (rows.map g) s = (ambientSeries f rows s).map h := by
  have hp : isAmbient f s ∘ g = isAmbient f s := by
    funext c
    obtain ⟨hc, hs, hf, -⟩ := hg c
    simp only [Function.comp_apply, isAmbient, hc, hs, hf]
  rw [ambientSeries_eq, ambientSeries_eq, List.filter_map, hp, List.map_map, List.map_map]
  exact List.map_congr_left fun c _ => (hg c).2.2.2

theorem mem_of_mem_ambientSeries {v : List α} (h : v ∈ ambientSeries f rows s) :
    ∃ c ∈ rows, c.values = v := by
  rw [ambientSeries_eq] at h
  obtain ⟨c, hc, rfl⟩ := List.mem_map.1 h
  exact ⟨c, (List.mem_filter.1 hc).1, rfl⟩

theorem forall_ambientValues_iff [Zero α] {P : α → Prop} (h0 : P 0) :
    (∀ k, ∀ y ∈ ambientValues f rows s k, P y) ↔ ∀ v ∈ ambientSeries f rows s, ∀ y ∈ v, P y := by
  simp only [ambientValues, List.forall_mem_map]
  exact ⟨fun h v hv => (forall_getD_iff h0).1 fun k => h k v hv,
    fun h k v hv => (forall_getD_iff h0).2 (h v hv) k⟩

theorem ambientEnergy_eq_sum {β : Type} [AddCommMonoid β] (f : FlowType)
    (rows : List (Component β)) (s : Service) (k : ℕ) :
    ambientEnergy f rows s k = (ambientValues f rows s k).sum := by
  cases f
  · rw [← getD_columnSums_ambientUse, getD_columnSums]
    rfl
  · rw [← getD_columnSums_ambientProduction, getD_columnSums]
    rfl

theorem ambientEnergy_congr {β : Type} [AddCommMonoid β] {rows rows' : List (Component β)}
    (h : ambientSeries f rows' s = ambientSeries f rows s) (k : ℕ) :
    ambientEnergy f rows' s k = ambientEnergy f rows s k := by
  rw [ambientEnergy_eq_sum, ambientEnergy_eq_sum, ambientValues, h, ambientValues]

end

/-! ## What is added and what is selected -/

section
variable {α : Type} [Zero α] [Add α] {rows : List (Component α)} {s : Service}

section
variable [Sub α] [LT α] [DecidableLT α] [BEq α]

/-- A service that uses no ambient energy lacks nothing. -/
theorem missingFor_eq_none_of_not_mem (h : s ∉ services (ambient rows)) :
    missingFor rows s = none := by
  have hnil : ambientUse rows s = [] := by
    refine List.map_eq_nil_iff.2 (List.filter_eq_nil_iff.2 fun c hc hp => h ?_)
    rw [Bool.and_eq_true, beq_iff_eq] at hp
    exact mem_distinct.2 (List.mem_map.2 ⟨c, hc, hp.1⟩)
  rw [missingFor, hnil]
  rfl

/-- What is added is for one service each. -/
theorem filter_missingProduction (rows : List (Component α)) (s : Service) :
    (missingProduction rows).filter (isAmbient .production s) = (missingFor rows s).toList := by
  have hown (s' : Service) : (missingFor rows s').filter (isAmbient .production s) =
      if s' = s then missingFor rows s' else none := by
    cases h : missingFor rows s' with
    | none => split_ifs <;> rfl
    | some c =>
      obtain ⟨-, rfl⟩ := of_missingFor h
      rw [Option.filter_some]
      by_cases hs : s' = s <;> simp [isAmbient, Flow.type, hs]
  have hone : (services (ambient rows)).filter (fun s' => decide (s' = s)) =
      if s ∈ services (ambient rows) then [s] else [] := by
    have hnodup : (services (ambient rows)).Nodup := nodup_distinct _
    rw [List.filter_eq, hnodup.count]
    split_ifs <;> rfl
  have hg : (fun s' => (missingFor rows s').filter (isAmbient .production s)) =
      fun s' => if decide (s' = s) = true then missingFor rows s' else none := by
    funext s'
    simp only [hown, decide_eq_true_eq]
  rw [missingProduction, List.filter_filterMap, hg, ← List.filterMap_filter, hone]
  split_ifs with hs
  · cases h : missingFor rows s <;> simp [h]
  · rw [missingFor_eq_none_of_not_mem hs]
    rfl

theorem ambientSeries_consumption_balance (rows : List (Component α)) (s : Service) :
    ambientSeries .consumption (rows ++ missingProduction rows) s =
      ambientSeries .consumption rows s := by
  have hnil : (missingProduction rows).filter (isAmbient .consumption s) = [] := by
    refine List.filter_eq_nil_iff.2 fun c hc hp => ?_
    obtain ⟨s', -, hs'⟩ := List.mem_filterMap.1 hc
    obtain ⟨-, rfl⟩ := of_missingFor hs'
    simp [isAmbient, Flow.type] at hp
  rw [ambientSeries_eq, ambientSeries_eq, List.filter_append, hnil, List.append_nil]

theorem ambientSeries_production_balance (rows : List (Component α)) (s : Service) :
    ambientSeries .production (rows ++ missingProduction rows) s =
      ambientSeries .production rows s ++ (missingFor rows s).toList.map (·.values) := by
  rw [ambientSeries_eq, ambientSeries_eq, List.filter_append, filter_missingProduction,
    List.map_append]

/-- Nothing changes for a service that lacks nothing. -/
theorem ambientSeries_balance_of_none (h : missingFor rows s = none) (f : FlowType) :
    ambientSeries f (rows ++ missingProduction rows) s = ambientSeries f rows s := by
  cases f
  · exact ambientSeries_consumption_balance rows s
  · rw [ambientSeries_production_balance, h]
    exact List.append_nil _

/-- What a service lacks is a series of its production after that. -/
theorem ambientSeries_balance_of_some {c : Component α} (h : missingFor rows s = some c) :
    ambientSeries .production (rows ++ missingProduction rows) s =
      ambientSeries .production rows s ++ [deficit rows s] := by
  obtain ⟨-, rfl⟩ := of_missingFor h
  rw [ambientSeries_production_balance, h]
  rfl

end

variable [Mul α] [Div α] [LT α] [DecidableLT α]

/-- Selection keeps the ambient energy of the service and drops that of others. -/
theorem ambientSeries_ofService (f : FlowType) (rows : List (Component α)) (v s : Service) :
    ambientSeries f (ofService rows v) s = if s = v then ambientSeries f rows s else [] := by
  have hnil : (reassigned rows v).filter (isAmbient f s) = [] := by
    refine List.filter_eq_nil_iff.2 fun c hc hp => ?_
    obtain ⟨d, -, rfl⟩ := mem_reassigned hc
    simp [isAmbient, reassign] at hp
  rw [ambientSeries_eq, ofService, List.filter_append, hnil, List.append_nil, List.filter_filter,
    ambientSeries_eq]
  split_ifs with hs
  · subst hs
    congr 2
    funext c
    simp only [isAmbient]
    cases c.service == s <;> simp
  · refine List.map_eq_nil_iff.2 (List.filter_eq_nil_iff.2 fun c _ hp => hs ?_)
    simp only [isAmbient, Bool.and_eq_true, beq_iff_eq] at hp
    exact hp.1.1.2.symm.trans hp.2

end

/-! ## The deficit of doubles -/

/-- The component with the numbers that its values stand for. -/
def exact (c : Component Float) : Component ℚ :=
  ⟨c.carrier, c.flow, c.service, c.values.map exactValue, c.comment⟩

/-- The exact ambient energy that is used by a service, or produced for it, in a time step. -/
def exactEnergy (f : FlowType) (rows : List (Component Float)) (s : Service) (k : ℕ) : ℚ :=
  ambientEnergy f (rows.map exact) s k

/-- What the same energy is computed as. -/
def computedEnergy (f : FlowType) (rows : List (Component Float)) (s : Service) (k : ℕ) : Float :=
  (columnSums (ambientSeries f rows s)).getD k 0

/-- Whether the ambient energy of a service is nowhere negative. -/
def IsNonneg (rows : List (Component Float)) (s : Service) : Prop :=
  ∀ f, ∀ v ∈ ambientSeries f rows s, ∀ y ∈ v, 0 ≤ exactValue y

variable {rows : List (Component Float)} {s : Service} {k : ℕ}

theorem exactEnergy_eq_sum (f : FlowType) (rows : List (Component Float)) (s : Service) (k : ℕ) :
    exactEnergy f rows s k = ((ambientValues f rows s k).map exactValue).sum := by
  have hmap : ambientSeries f (rows.map exact) s =
      (ambientSeries f rows s).map (List.map exactValue) :=
    ambientSeries_map fun _ => ⟨rfl, rfl, rfl, rfl⟩
  rw [exactEnergy, ambientEnergy_eq_sum, ambientValues, hmap, List.map_map, ambientValues,
    List.map_map]
  exact congrArg List.sum (List.map_congr_left fun v _ => getD_map_of_zero exactValue_zero v k)

/-- Without production, the deficit is what is used. -/
theorem getD_deficit_of_none (h : ambientSeries .production rows s = []) (k : ℕ) :
    (deficit rows s).getD k 0 = computedEnergy .consumption rows s k := by
  rw [deficit_of_none h]
  rfl

/-- With production, the deficit is what is left of the use above it. -/
theorem getD_deficit_of_ne (h : ambientSeries .production rows s ≠ []) (k : ℕ) :
    (deficit rows s).getD k 0 =
      clamp (computedEnergy .consumption rows s k - computedEnergy .production rows s k) := by
  rw [deficit_of_ne h, getD_map_of_zero (by decide), Series.sub, getD_zipPadded (by decide)]
  rfl

section
variable (hn : IsNonneg rows s)
include hn

theorem nonneg_of_mem_ambientValues (f : FlowType) (k : ℕ) :
    ∀ y ∈ ambientValues f rows s k, 0 ≤ exactValue y :=
  (forall_ambientValues_iff (P := fun y => 0 ≤ exactValue y) exactValue_zero.ge).2 (hn f) k

theorem exactEnergy_nonneg (f : FlowType) (k : ℕ) : 0 ≤ exactEnergy f rows s k := by
  rw [exactEnergy_eq_sum]
  exact List.sum_nonneg (List.forall_mem_map.2 (nonneg_of_mem_ambientValues hn f k))

theorem isSum_computedEnergy (f : FlowType) (k : ℕ) :
    IsSum ((ambientSeries f rows s).length + 1) (computedEnergy f rows s k)
      (ambientValues f rows s k) :=
  isSum_columnSums (hn f) k

/-- The computed energy is the exact one up to rounding. -/
theorem computedEnergy_bounds (f : FlowType) (k : ℕ) :
    exactValue (computedEnergy f rows s k) ≤
        slack ^ ((ambientSeries f rows s).length + 1) * exactEnergy f rows s k ∧
      (IsFinite (computedEnergy f rows s k) →
        exactEnergy f rows s k ≤ slack ^ ((ambientSeries f rows s).length + 1) *
          exactValue (computedEnergy f rows s k)) := by
  obtain ⟨-, -, hle, -, hge⟩ := isSum_computedEnergy hn f k
  rw [Multiset.map_coe, Multiset.sum_coe, ← exactEnergy_eq_sum] at hle hge
  exact ⟨hle, hge⟩

/-- Where the exact energy is not too large for the doubles, no series is infinite. -/
theorem isFinite_of_exactEnergy_lt {f : FlowType} (hd : ∀ y ∈ ambientValues f rows s k, IsDefined y)
    (hlt : exactEnergy f rows s k < overflowBound) :
    ∀ y ∈ ambientValues f rows s k, IsFinite y := by
  intro y hy
  have hnonneg := nonneg_of_mem_ambientValues hn f k
  rw [exactEnergy_eq_sum] at hlt
  exact isFinite_of_lt_overflowBound (hd y hy) (hnonneg y hy)
    ((List.single_le_sum (List.forall_mem_map.2 hnonneg) _ (List.mem_map_of_mem hy)).trans_lt hlt)

/-- Where it stays below the bound when it is rounded, the computed energy is finite. -/
theorem isFinite_computedEnergy {f : FlowType} (hd : ∀ y ∈ ambientValues f rows s k, IsDefined y)
    (hlt : slack ^ ((ambientSeries f rows s).length + 1) * exactEnergy f rows s k <
      overflowBound) :
    IsFinite (computedEnergy f rows s k) := by
  have hsum := isSum_computedEnergy hn f k
  exact isFinite_of_lt_overflowBound (hsum.defined fun y hy => hd y (Multiset.mem_coe.1 hy))
    hsum.nonneg ((computedEnergy_bounds hn f k).1.trans_lt hlt)

/-- The deficit in a time step is what is left of the computed use above the computed
    production. -/
theorem isExcess_deficit (k : ℕ) :
    IsExcess (computedEnergy .consumption rows s k) (computedEnergy .production rows s k)
      ((deficit rows s).getD k 0) := by
  have hx := (isSum_computedEnergy hn .consumption k).nonneg
  have hy := (isSum_computedEnergy hn .production k).nonneg
  by_cases hnone : ambientSeries .production rows s = []
  · have hp : computedEnergy .production rows s k = 0 := by
      rw [computedEnergy, hnone]
      rfl
    rw [getD_deficit_of_none hnone, hp]
    exact isExcess_self_zero hx
  · rw [getD_deficit_of_ne hnone]
    exact isExcess_clamp_sub hx hy

theorem deficit_nonneg : ∀ y ∈ deficit rows s, 0 ≤ exactValue y :=
  (forall_getD_iff (P := fun y => 0 ≤ exactValue y) exactValue_zero.ge).1
    fun k => (isExcess_deficit hn k).nonneg

/-- Production and deficit cover the use, up to rounding. -/
theorem use_le_of_isFinite_deficit (hf : IsFinite ((deficit rows s).getD k 0)) :
    exactEnergy .consumption rows s k ≤ slack ^ (ambientCount rows s + 2) *
      (exactEnergy .production rows s k + exactValue ((deficit rows s).getD k 0)) := by
  have hexcess := isExcess_deficit hn k
  have hu := (computedEnergy_bounds hn .consumption k).2 (hexcess.isFinite_iff.1 hf).1
  have hp := (computedEnergy_bounds hn .production k).1
  generalize (deficit rows s).getD k 0 = e at *
  have he : slack * exactValue e ≤
      slack ^ ((ambientSeries .production rows s).length + 1) * exactValue e :=
    mul_le_mul_of_nonneg_right (le_self_pow₀ one_le_slack (Nat.succ_ne_zero _)) hexcess.nonneg
  calc exactEnergy .consumption rows s k
      ≤ slack ^ ((ambientSeries .consumption rows s).length + 1) *
          exactValue (computedEnergy .consumption rows s k) := hu
    _ ≤ slack ^ ((ambientSeries .consumption rows s).length + 1) *
          (slack ^ ((ambientSeries .production rows s).length + 1) *
            (exactEnergy .production rows s k + exactValue e)) := by
        refine mul_le_mul_of_nonneg_left ((hexcess.le hf).trans ?_) (slack_pow_nonneg _)
        rw [mul_add]
        exact add_le_add hp he
    _ = slack ^ (ambientCount rows s + 2) *
          (exactEnergy .production rows s k + exactValue e) := by
        rw [← mul_assoc, ← pow_add, ambientCount]
        congr 2
        omega

/-- Where there is a deficit, the series are finite, and the use is no less than production and
    deficit, up to rounding. -/
theorem le_use_of_isFinite_deficit (hf : IsFinite ((deficit rows s).getD k 0))
    (h0 : exactValue ((deficit rows s).getD k 0) ≠ 0) :
    (∀ f, ∀ y ∈ ambientValues f rows s k, IsFinite y) ∧
      exactEnergy .production rows s k + exactValue ((deficit rows s).getD k 0) ≤
        slack ^ (ambientCount rows s + 3) * exactEnergy .consumption rows s k := by
  have hexcess := isExcess_deficit hn k
  obtain ⟨hpf, hle⟩ := hexcess.ge hf h0
  have huf := (hexcess.isFinite_iff.1 hf).1
  have hu := (computedEnergy_bounds hn .consumption k).1
  have hp := (computedEnergy_bounds hn .production k).2 hpf
  refine ⟨fun f => ?_, ?_⟩
  · cases f
    · exact (isSum_computedEnergy hn .consumption k).finite huf
    · exact (isSum_computedEnergy hn .production k).finite hpf
  generalize (deficit rows s).getD k 0 = e at *
  calc exactEnergy .production rows s k + exactValue e
      ≤ slack ^ ((ambientSeries .production rows s).length + 1) *
          (exactValue (computedEnergy .production rows s k) + exactValue e) := by
        rw [mul_add]
        exact add_le_add hp (le_slack_pow_mul hexcess.nonneg _)
    _ ≤ slack ^ ((ambientSeries .production rows s).length + 1) *
          (slack * (slack ^ ((ambientSeries .consumption rows s).length + 1) *
            exactEnergy .consumption rows s k)) := by
        refine mul_le_mul_of_nonneg_left (hle.trans ?_) (slack_pow_nonneg _)
        exact mul_le_mul_of_nonneg_left hu slack_nonneg
    _ = slack ^ (ambientCount rows s + 3) * exactEnergy .consumption rows s k := by
        rw [← mul_assoc, ← mul_assoc, ← pow_succ, ← pow_add, ambientCount]
        congr 2
        omega

/-- Nothing is added for a service whose deficit is zero in every time step. -/
theorem missingFor_eq_none
    (h : ∀ k, IsFinite ((deficit rows s).getD k 0) ∧ exactValue ((deficit rows s).getD k 0) = 0) :
    missingFor rows s = none := by
  have hall := (forall_getD_iff (P := fun y => IsFinite y ∧ exactValue y = 0)
    ⟨isFinite_zero, exactValue_zero⟩).1 h
  rw [missingFor, (total_beq_zero_iff (deficit_nonneg hn)).2 hall, Bool.or_true, if_pos rfl]

/-- A service for which nothing is added has no deficit, if its production is all numbers. -/
theorem deficit_eq_zero (hd : ∀ y ∈ ambientValues .production rows s k, IsDefined y)
    (h : missingFor rows s = none) :
    IsFinite ((deficit rows s).getD k 0) ∧ exactValue ((deficit rows s).getD k 0) = 0 := by
  unfold missingFor at h
  split at h
  · rename_i hnone
    rcases Bool.or_eq_true _ _ ▸ hnone with hunused | htotal
    · -- nothing is used, so nothing is left above the production
      have hnil : ambientSeries .consumption rows s = [] := List.isEmpty_iff.1 hunused
      have hu : computedEnergy .consumption rows s k = 0 := by
        rw [computedEnergy, hnil]
        rfl
      have hp := isSum_computedEnergy hn .production k
      have hpd : IsDefined (computedEnergy .production rows s k) :=
        hp.defined fun y hy => hd y (Multiset.mem_coe.1 hy)
      have hexcess := isExcess_deficit hn k
      rw [hu] at hexcess
      have hf := hexcess.isFinite_iff.2 ⟨isFinite_zero, hpd⟩
      exact ⟨hf, hexcess.eq_zero hf (exactValue_zero.trans_le hp.nonneg)⟩
    · exact (forall_getD_iff (P := fun y => IsFinite y ∧ exactValue y = 0)
        ⟨isFinite_zero, exactValue_zero⟩).2 ((total_beq_zero_iff (deficit_nonneg hn)).1 htotal) k
  · cases h

omit hn in
/-- The computed energy is exact if it is that of a single series. -/
theorem exactValue_computedEnergy {f : FlowType} (hlen : (ambientSeries f rows s).length ≤ 1)
    (hf : ∀ y ∈ ambientValues f rows s k, IsFinite y) :
    IsFinite (computedEnergy f rows s k) ∧
      exactValue (computedEnergy f rows s k) = exactEnergy f rows s k := by
  rw [exactEnergy_eq_sum]
  exact exactValue_columnSums hlen hf

end

end Component

end PrimaryEnergy
