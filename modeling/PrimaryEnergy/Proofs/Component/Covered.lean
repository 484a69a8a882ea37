/-
  Ambient energy that production covers up to rounding.

  Balancing covers what is used with computed sums, and a file shows each row with two decimals.
  So the rows of a file that is read again are balanced up to the roundings of these sums and up
  to half of the last place for each row.

  * `IsCovered`: what is known of rows in memory; balancing establishes it (`isCovered_balance`)
    and the selection of a service keeps it (`IsCovered.ofService`);
  * `IsNearlyBalanced`: what is known of the rows of a file (`isNearlyBalanced_rounded`).
-/
import PrimaryEnergy.Proofs.Component.Ambient
import PrimaryEnergy.Proofs.Decimal.Written

namespace PrimaryEnergy

open Series Decimal

namespace Component

variable {rows : List (Component Float)} {s : Service} {k : ℕ}

/-! ## Rows in memory -/

/-- The ambient energy that a service uses is covered, up to the roundings of computed sums. -/
structure IsCovered (rows : List (Component Float)) (s : Service) : Prop where
  nonneg : IsNonneg rows s
  use_defined : ∀ k, ∀ y ∈ ambientValues .consumption rows s k, IsDefined y
  /-- Where the use is not too large, the production is a number, too. -/
  production_defined : ∀ k,
    slack ^ (ambientCount rows s + 2) * exactEnergy .consumption rows s k < overflowBound →
      ∀ y ∈ ambientValues .production rows s k, IsDefined y
  /-- Where the production is finite, it covers the use. -/
  covered : ∀ k, (∀ y ∈ ambientValues .production rows s k, IsFinite y) →
    exactEnergy .consumption rows s k ≤
      slack ^ (ambientCount rows s + 2) * exactEnergy .production rows s k
  /-- A single production covers a single use exactly. -/
  single : (∀ f, (ambientSeries f rows s).length ≤ 1) → ∀ k,
    (∀ f, ∀ y ∈ ambientValues f rows s k, IsFinite y) →
      exactEnergy .consumption rows s k ≤ exactEnergy .production rows s k

namespace IsCovered

variable {rows' : List (Component Float)}

theorem congr (h : IsCovered rows s) (heq : ∀ f, ambientSeries f rows' s = ambientSeries f rows s) :
    IsCovered rows' s := by
  have hvalues (f : FlowType) (k : ℕ) : ambientValues f rows' s k = ambientValues f rows s k := by
    rw [ambientValues, heq]
    rfl
  have henergy (f : FlowType) (k : ℕ) : exactEnergy f rows' s k = exactEnergy f rows s k := by
    rw [exactEnergy_eq_sum, exactEnergy_eq_sum, hvalues]
  have hcount : ambientCount rows' s = ambientCount rows s :=
    congrArg₂ (· + ·) (congrArg List.length (heq .consumption))
      (congrArg List.length (heq .production))
  obtain ⟨hn, hu, hp, hc, hs⟩ := h
  refine ⟨?_, ?_, ?_, ?_, ?_⟩
  · simpa only [IsNonneg, heq] using hn
  · simpa only [hvalues] using hu
  · simpa only [hvalues, henergy, hcount] using hp
  · simpa only [hvalues, henergy, hcount] using hc
  · simpa only [heq, hvalues, henergy] using hs

/-- A service without ambient energy. -/
theorem of_nil (h : ∀ f, ambientSeries f rows s = []) : IsCovered rows s := by
  have hvalues (f : FlowType) (k : ℕ) : ambientValues f rows s k = [] := by
    rw [ambientValues, h]
    rfl
  have henergy (f : FlowType) (k : ℕ) : exactEnergy f rows s k = 0 := by
    rw [exactEnergy_eq_sum, hvalues]
    rfl
  refine ⟨?_, ?_, ?_, ?_, ?_⟩
  · intro f v hv
    rw [h] at hv
    cases hv
  · intro k y hy
    rw [hvalues] at hy
    cases hy
  · intro k _ y hy
    rw [hvalues] at hy
    cases hy
  · intro k _
    rw [henergy, henergy, mul_zero]
  · intro _ k _
    rw [henergy, henergy]

/-- The selection of a service keeps the ambient energy covered. -/
theorem ofService (h : ∀ s, IsCovered rows s) (v : Service) (s : Service) :
    IsCovered (Component.ofService rows v) s := by
  by_cases hs : s = v
  · exact (h s).congr fun f => by rw [ambientSeries_ofService, if_pos hs]
  · exact of_nil fun f => by rw [ambientSeries_ofService, if_neg hs]

/-- A service whose deficit is zero. -/
theorem of_deficit_eq_zero (hn : IsNonneg rows s)
    (hd : ∀ f k, ∀ y ∈ ambientValues f rows s k, IsDefined y)
    (h : ∀ k, IsFinite ((deficit rows s).getD k 0) ∧ exactValue ((deficit rows s).getD k 0) = 0) :
    IsCovered rows s := by
  refine ⟨hn, hd .consumption, fun k _ => hd .production k, ?_, ?_⟩
  · intro k _
    obtain ⟨hf, h0⟩ := h k
    have hle := use_le_of_isFinite_deficit hn hf
    rwa [h0, add_zero] at hle
  · intro hlen k hfin
    obtain ⟨hf, h0⟩ := h k
    have hle := (isExcess_deficit hn k).le hf
    rwa [h0, mul_zero, add_zero, (exactValue_computedEnergy (hlen _) (hfin _)).2,
      (exactValue_computedEnergy (hlen _) (hfin _)).2] at hle

/-- A service to whose production the deficit is added. -/
theorem of_deficit_added (hn : IsNonneg rows s)
    (hd : ∀ f k, ∀ y ∈ ambientValues f rows s k, IsDefined y)
    (huse : ambientSeries .consumption rows' s = ambientSeries .consumption rows s)
    (hproduction : ambientSeries .production rows' s =
      ambientSeries .production rows s ++ [deficit rows s]) :
    IsCovered rows' s := by
  have hu (k : ℕ) : ambientValues .consumption rows' s k = ambientValues .consumption rows s k := by
    rw [ambientValues, huse, ambientValues]
  have hp (k : ℕ) : ambientValues .production rows' s k =
      ambientValues .production rows s k ++ [(deficit rows s).getD k 0] := by
    rw [ambientValues, hproduction, List.map_append, ambientValues, List.map_singleton]
  have heu (k : ℕ) : exactEnergy .consumption rows' s k = exactEnergy .consumption rows s k := by
    rw [exactEnergy_eq_sum, exactEnergy_eq_sum, hu]
  have hep (k : ℕ) : exactEnergy .production rows' s k =
      exactEnergy .production rows s k + exactValue ((deficit rows s).getD k 0) := by
    rw [exactEnergy_eq_sum, exactEnergy_eq_sum, hp, List.map_append, List.sum_append,
      List.map_singleton, List.sum_singleton]
  have hcount : ambientCount rows' s = ambientCount rows s + 1 := by
    rw [ambientCount, ambientCount, huse, hproduction, List.length_append, List.length_singleton,
      Nat.add_assoc]
  refine ⟨?_, ?_, ?_, ?_, ?_⟩
  · rintro (_ | _) v hv
    · rw [huse] at hv
      exact hn .consumption v hv
    · rw [hproduction] at hv
      rcases List.mem_append.1 hv with hv | hv
      · exact hn .production v hv
      · rw [List.mem_singleton.1 hv]
        exact deficit_nonneg hn
  · intro k
    rw [hu]
    exact hd .consumption k
  · intro k hlt y hy
    rw [hp] at hy
    rcases List.mem_append.1 hy with hy | hy
    · exact hd .production k y hy
    · rw [heu, hcount] at hlt
      have hf : IsFinite (computedEnergy .consumption rows s k) := by
        refine isFinite_computedEnergy hn (hd .consumption k) (lt_of_le_of_lt ?_ hlt)
        have := length_ambientSeries_le .consumption rows s
        exact mul_le_mul_of_nonneg_right (slack_pow_le (by omega)) (exactEnergy_nonneg hn _ k)
      have hp : IsDefined (computedEnergy .production rows s k) :=
        (isSum_computedEnergy hn .production k).defined
          fun y hy => hd .production k y (Multiset.mem_coe.1 hy)
      rw [List.mem_singleton.1 hy]
      exact ((isExcess_deficit hn k).isFinite_iff.2 ⟨hf, hp⟩).isDefined
  · intro k hfin
    rw [hp] at hfin
    have hf := hfin _ (List.mem_append_right _ (List.mem_singleton_self _))
    have hle := use_le_of_isFinite_deficit hn hf
    rw [heu, hep, hcount]
    refine hle.trans (mul_le_mul_of_nonneg_right (slack_pow_le (by omega)) ?_)
    exact add_nonneg (exactEnergy_nonneg hn _ k) (isExcess_deficit hn k).nonneg
  · intro hlen k hfin
    have hlen₁ := hlen .consumption
    have hlen₂ := hlen .production
    have hfin := hfin .consumption
    rw [huse] at hlen₁
    rw [hproduction, List.length_append, List.length_singleton] at hlen₂
    rw [hu] at hfin
    have hnone : ambientSeries .production rows s = [] := List.length_eq_zero_iff.1 (by omega)
    rw [heu, hep, getD_deficit_of_none hnone, (exactValue_computedEnergy hlen₁ hfin).2]
    exact le_add_of_nonneg_left (exactEnergy_nonneg hn _ k)

end IsCovered

/-- **Balancing covers the ambient energy of every service**, up to rounding. -/
theorem isCovered_balance (h : ∀ c ∈ rows, ∀ v ∈ c.values, 0 ≤ v) (s : Service) :
    IsCovered (rows ++ missingProduction rows) s := by
  have hall (f : FlowType) : ∀ v ∈ ambientSeries f rows s, ∀ y ∈ v,
      IsDefined y ∧ 0 ≤ exactValue y := by
    intro v hv y hy
    obtain ⟨c, hc, rfl⟩ := mem_of_mem_ambientSeries hv
    exact nonneg_iff.1 (h c hc y hy)
  have hn : IsNonneg rows s := fun f v hv y hy => (hall f v hv y hy).2
  have hd (f : FlowType) : ∀ k, ∀ y ∈ ambientValues f rows s k, IsDefined y :=
    (forall_ambientValues_iff isFinite_zero.isDefined).2 fun v hv y hy => (hall f v hv y hy).1
  cases hm : missingFor rows s with
  | none =>
    have hzero (k : ℕ) := deficit_eq_zero hn (hd .production k) hm
    exact (IsCovered.of_deficit_eq_zero hn hd hzero).congr (ambientSeries_balance_of_none hm)
  | some c =>
    exact .of_deficit_added hn hd (ambientSeries_consumption_balance rows s)
      (ambientSeries_balance_of_some hm)

/-! ## Rows of a file -/

theorem ambientSeries_rounded (f : FlowType) (rows : List (Component Float)) (s : Service) :
    ambientSeries f (rows.map rounded) s = (ambientSeries f rows s).map (List.map (roundedTo 2)) :=
  ambientSeries_map fun _ => ⟨rfl, rfl, rfl, rfl⟩

theorem ambientValues_rounded (f : FlowType) (rows : List (Component Float)) (s : Service) (k : ℕ) :
    ambientValues f (rows.map rounded) s k = (ambientValues f rows s k).map (roundedTo 2) := by
  have hzero : roundedTo 2 0 = 0 := by decide +kernel
  rw [ambientValues, ambientSeries_rounded, List.map_map, ambientValues, List.map_map]
  exact List.map_congr_left fun v _ => getD_map_of_zero hzero v k

theorem ambientCount_rounded (rows : List (Component Float)) (s : Service) :
    ambientCount (rows.map rounded) s = ambientCount rows s := by
  simp only [ambientCount, ambientSeries_rounded, List.length_map]

theorem isNonneg_rounded (hn : IsNonneg rows s) : IsNonneg (rows.map rounded) s := by
  intro f v hv y hy
  rw [ambientSeries_rounded] at hv
  obtain ⟨w, hw, rfl⟩ := List.mem_map.1 hv
  obtain ⟨x, hx, rfl⟩ := List.mem_map.1 hy
  exact (roundedTo_spec (by decide) (hn f w hw x hx)).2.2.1

section
variable (hn : IsNonneg rows s)
include hn

theorem isFinite_ambientValues_rounded {f : FlowType} :
    (∀ y ∈ ambientValues f (rows.map rounded) s k, IsFinite y) ↔
      ∀ y ∈ ambientValues f rows s k, IsFinite y := by
  rw [ambientValues_rounded, List.forall_mem_map]
  exact forall₂_congr fun y hy =>
    (roundedTo_spec (by decide) (nonneg_of_mem_ambientValues hn f k y hy)).1

theorem isDefined_ambientValues_rounded {f : FlowType}
    (hd : ∀ y ∈ ambientValues f rows s k, IsDefined y) :
    ∀ y ∈ ambientValues f (rows.map rounded) s k, IsDefined y := by
  rw [ambientValues_rounded, List.forall_mem_map]
  exact fun y hy =>
    (roundedTo_spec (by decide) (nonneg_of_mem_ambientValues hn f k y hy)).2.1 (hd y hy)

/-- Written with two decimals, a sum changes by half of the last place for each series at most. -/
theorem exactEnergy_rounded {f : FlowType} (hf : ∀ y ∈ ambientValues f rows s k, IsFinite y) :
    exactEnergy f (rows.map rounded) s k ≤
        slack * (exactEnergy f rows s k + (ambientSeries f rows s).length * halfUnit 2) ∧
      exactEnergy f rows s k ≤ slack *
        (exactEnergy f (rows.map rounded) s k + (ambientSeries f rows s).length * halfUnit 2) := by
  have hlen : (ambientValues f rows s k).length = (ambientSeries f rows s).length :=
    List.length_map _
  rw [exactEnergy_eq_sum, exactEnergy_eq_sum, ambientValues_rounded, ← hlen]
  exact sum_roundedTo (by decide) (nonneg_of_mem_ambientValues hn f k) hf

end

namespace IsCovered

variable (h : IsCovered rows s)
include h

/-- The production in the file covers the use there, up to rounding. -/
theorem use_le_rounded (hf : ∀ f, ∀ y ∈ ambientValues f (rows.map rounded) s k, IsFinite y) :
    exactEnergy .consumption (rows.map rounded) s k ≤ slack ^ (ambientCount rows s + 4) *
      (exactEnergy .production (rows.map rounded) s k + ambientCount rows s * halfUnit 2) := by
  have hf (f : FlowType) := (isFinite_ambientValues_rounded h.nonneg).1 (hf f)
  have hu := (exactEnergy_rounded h.nonneg (hf .consumption)).1
  have hp := (exactEnergy_rounded h.nonneg (hf .production)).2
  have hc := h.covered k (hf .production)
  have hhalf := mul_halfUnit_nonneg (ambientSeries .consumption rows s).length 2
  generalize exactEnergy .consumption (rows.map rounded) s k = U' at *
  generalize exactEnergy .production (rows.map rounded) s k = P' at *
  generalize exactEnergy .consumption rows s k = U at *
  generalize exactEnergy .production rows s k = P at *
  have hcount : (ambientCount rows s : ℚ) * halfUnit 2 =
      (ambientSeries .production rows s).length * halfUnit 2 +
        (ambientSeries .consumption rows s).length * halfUnit 2 := by
    rw [ambientCount, Nat.cast_add, add_mul, add_comm]
  rw [hcount, ← add_assoc]
  generalize ((ambientSeries .consumption rows s).length : ℚ) * halfUnit 2 = a at *
  generalize ((ambientSeries .production rows s).length : ℚ) * halfUnit 2 = b at *
  generalize ambientCount rows s = n at *
  have hp' : U ≤ slack ^ (n + 3) * (P' + b) := by
    rw [pow_succ, mul_assoc]
    exact hc.trans (mul_le_mul_of_nonneg_left hp (slack_pow_nonneg _))
  have ha : a ≤ slack ^ (n + 3) * a := le_slack_pow_mul hhalf _
  calc U' ≤ slack * (U + a) := hu
    _ ≤ slack * (slack ^ (n + 3) * (P' + b + a)) := by
        rw [mul_add _ (P' + b)]
        exact mul_le_mul_of_nonneg_left (add_le_add hp' ha) slack_nonneg
    _ = slack ^ (n + 4) * (P' + b + a) := by rw [← mul_assoc, ← pow_succ']

/-- What is missing in the file is small. -/
theorem production_add_deficit_le (hf : IsFinite ((deficit (rows.map rounded) s).getD k 0)) :
    exactEnergy .production (rows.map rounded) s k +
        exactValue ((deficit (rows.map rounded) s).getD k 0) ≤
      slack ^ (2 * ambientCount rows s + 7) *
        (exactEnergy .production (rows.map rounded) s k + ambientCount rows s * halfUnit 2) := by
  have hn := isNonneg_rounded h.nonneg
  have hP := exactEnergy_nonneg hn .production k
  have hhalf := mul_halfUnit_nonneg (ambientCount rows s) 2
  by_cases h0 : exactValue ((deficit (rows.map rounded) s).getD k 0) = 0
  · rw [h0, add_zero]
    exact (le_add_of_nonneg_right hhalf).trans (le_slack_pow_mul (add_nonneg hP hhalf) _)
  · obtain ⟨hfin, hle⟩ := le_use_of_isFinite_deficit hn hf h0
    rw [ambientCount_rounded] at hle
    refine hle.trans ?_
    refine (mul_le_mul_of_nonneg_left (h.use_le_rounded hfin) (slack_pow_nonneg _)).trans_eq ?_
    rw [← mul_assoc, ← pow_add]
    congr 2
    omega

/-- What is missing is a number, unless the use is too large for the doubles. -/
theorem isFinite_deficit_rounded
    (hlt : slack ^ (ambientCount rows s + 3) * (exactEnergy .consumption (rows.map rounded) s k +
      ambientCount rows s * halfUnit 2) < overflowBound) :
    IsFinite ((deficit (rows.map rounded) s).getD k 0) := by
  have hn := isNonneg_rounded h.nonneg
  have hU := exactEnergy_nonneg hn .consumption k
  have hhalf := mul_halfUnit_nonneg (ambientCount rows s) 2
  have hlen := length_ambientSeries_le .consumption rows s
  have hdefined := isDefined_ambientValues_rounded h.nonneg (h.use_defined k)
  have hfin : ∀ y ∈ ambientValues .consumption (rows.map rounded) s k, IsFinite y :=
    isFinite_of_exactEnergy_lt hn hdefined (lt_of_le_of_lt
      ((le_add_of_nonneg_right hhalf).trans (le_slack_pow_mul (add_nonneg hU hhalf) _)) hlt)
  refine (isExcess_deficit hn k).isFinite_iff.2 ⟨?_, ?_⟩
  · refine isFinite_computedEnergy hn hdefined (lt_of_le_of_lt ?_ hlt)
    rw [ambientSeries_rounded, List.length_map]
    exact mul_le_mul (slack_pow_le (by omega)) (le_add_of_nonneg_right hhalf) hU
      (slack_pow_nonneg _)
  · -- the use in memory is not too large, either
    have hu := (exactEnergy_rounded h.nonneg ((isFinite_ambientValues_rounded h.nonneg).1 hfin)).2
    have hle : ((ambientSeries .consumption rows s).length : ℚ) * halfUnit 2 ≤
        ambientCount rows s * halfUnit 2 :=
      mul_le_mul_of_nonneg_right (Nat.cast_le.2 hlen) (halfUnit_pos 2).le
    have hsucc : slack ^ (ambientCount rows s + 3) = slack ^ (ambientCount rows s + 2) * slack :=
      pow_succ _ _
    rw [hsucc, mul_assoc] at hlt
    have hu' := hu.trans (mul_le_mul_of_nonneg_left (add_le_add_right hle _) slack_nonneg)
    have hproduction := h.production_defined k
      ((mul_le_mul_of_nonneg_left hu' (slack_pow_nonneg _)).trans_lt hlt)
    exact (isSum_computedEnergy hn .production k).defined fun y hy =>
      isDefined_ambientValues_rounded h.nonneg hproduction y (Multiset.mem_coe.1 hy)

/-- A single production covers a single use in the file, too. -/
theorem missingFor_rounded_eq_none
    (hlen : ∀ f, (ambientSeries f (rows.map rounded) s).length ≤ 1)
    (hf : ∀ f k, ∀ y ∈ ambientValues f (rows.map rounded) s k, IsFinite y) :
    missingFor (rows.map rounded) s = none := by
  have hn := isNonneg_rounded h.nonneg
  refine missingFor_eq_none hn fun k => ?_
  obtain ⟨huf, hu⟩ := exactValue_computedEnergy (hlen .consumption) (hf .consumption k)
  obtain ⟨hpf, hp⟩ := exactValue_computedEnergy (hlen .production) (hf .production k)
  have hexcess := isExcess_deficit hn k
  have hfin := hexcess.isFinite_iff.2 ⟨huf, hpf.isDefined⟩
  refine ⟨hfin, hexcess.eq_zero hfin ?_⟩
  rw [hu, hp]
  have hlen (f : FlowType) : (ambientSeries f rows s).length ≤ 1 := by
    have := hlen f
    rwa [ambientSeries_rounded, List.length_map] at this
  have hlen' (f : FlowType) : (ambientValues f rows s k).length ≤ 1 :=
    (List.length_map _).trans_le (hlen f)
  have hf (f : FlowType) := (isFinite_ambientValues_rounded h.nonneg).1 (hf f k)
  have hle := h.single hlen k hf
  rw [exactEnergy_eq_sum, exactEnergy_eq_sum] at hle ⊢
  rw [ambientValues_rounded, ambientValues_rounded]
  exact sum_roundedTo_mono (by decide) (hlen' _) (hlen' _)
    (List.forall_mem_append.2 ⟨nonneg_of_mem_ambientValues h.nonneg _ k,
      nonneg_of_mem_ambientValues h.nonneg _ k⟩)
    (List.forall_mem_append.2 ⟨hf _, hf _⟩) hle

end IsCovered

/-- Rows of a file for which hardly any production of ambient energy is missing. -/
structure IsNearlyBalanced (rows : List (Component Float)) : Prop where
  /-- What is used is produced, too, up to half of the last place for each series and up to the
      roundings of sums. -/
  covered : ∀ s k, (∀ f, ∀ y ∈ ambientValues f rows s k, IsFinite y) →
    exactEnergy .consumption rows s k ≤ slack ^ (ambientCount rows s + 4) *
      (exactEnergy .production rows s k + ambientCount rows s * halfUnit 2)
  /-- No more than that is found missing. -/
  missing : ∀ d ∈ missingProduction rows, ∀ k, IsFinite (d.values.getD k 0) →
    exactEnergy .production rows d.service k + exactValue (d.values.getD k 0) ≤
      slack ^ (2 * ambientCount rows d.service + 7) *
        (exactEnergy .production rows d.service k + ambientCount rows d.service * halfUnit 2)
  /-- What is found missing is a number, unless the use is too large for the doubles. -/
  finite : ∀ d ∈ missingProduction rows, ∀ k,
    slack ^ (ambientCount rows d.service + 3) *
      (exactEnergy .consumption rows d.service k + ambientCount rows d.service * halfUnit 2) <
        overflowBound →
      IsFinite (d.values.getD k 0)
  /-- Nothing is missing for a service with one series of use and one of production at most. -/
  single : ∀ s, (∀ f, (ambientSeries f rows s).length ≤ 1) →
    (∀ f, ∀ v ∈ ambientSeries f rows s, ∀ y ∈ v, IsFinite y) →
      ∀ d ∈ missingProduction rows, d.service ≠ s

/-- **A file of rows that are balanced is nearly balanced.** -/
theorem isNearlyBalanced_rounded (h : ∀ s, IsCovered rows s) :
    IsNearlyBalanced (rows.map rounded) := by
  have hadded : ∀ d ∈ missingProduction (rows.map rounded),
      missingFor (rows.map rounded) d.service = some d ∧
        d.values = deficit (rows.map rounded) d.service := by
    intro d hd
    obtain ⟨s, -, hs⟩ := List.mem_filterMap.1 hd
    obtain ⟨-, rfl⟩ := of_missingFor hs
    exact ⟨hs, rfl⟩
  refine ⟨?_, ?_, ?_, ?_⟩
  · intro s k hf
    rw [ambientCount_rounded]
    exact (h s).use_le_rounded hf
  · intro d hd k hf
    rw [(hadded d hd).2] at hf ⊢
    rw [ambientCount_rounded]
    exact (h d.service).production_add_deficit_le hf
  · intro d hd k hlt
    rw [(hadded d hd).2]
    rw [ambientCount_rounded] at hlt
    exact (h d.service).isFinite_deficit_rounded hlt
  · rintro s hlen hf d hd rfl
    have hnone := (h d.service).missingFor_rounded_eq_none hlen fun f =>
      (forall_ambientValues_iff isFinite_zero).2 (hf f)
    rw [(hadded d hd).1] at hnone
    cases hnone

end Component

end PrimaryEnergy
