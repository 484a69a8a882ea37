/-
  Balancing looks at one service at a time.

  What a service lacks is read off its own rows of ambient energy, in their order.  So the rows of
  other services and of other carriers between them make no difference, whatever the numbers are
  and however their sums are rounded.

  * `ambientOf`: the rows of ambient energy of a service, and `longest_ambientOf`: the longest of
    their series is as long as what is added;
  * `missingFor_congr`: what a service lacks only hangs on them;
  * `missingProduction_of_service`: of rows of one service, that service alone can lack something;
  * `missingProduction_local`: so balancing is done for each service by itself.
-/
import PrimaryEnergy.Proofs.Component.Ambient

namespace PrimaryEnergy

open Series

namespace Component

section
variable {α : Type} {rows rows' : List (Component α)} {s : Service}

/-! ## The rows of a service -/

/-- The components of ambient energy of a service. -/
def ambientOf (rows : List (Component α)) (s : Service) : List (Component α) :=
  (ambient rows).filter fun c => c.service == s

theorem ambient_ambient (rows : List (Component α)) : ambient (ambient rows) = ambient rows := by
  simp [ambient]

theorem mem_ambientOf {c : Component α} :
    c ∈ ambientOf rows s ↔ c ∈ rows ∧ c.carrier = .ambient ∧ c.service = s := by
  simp [ambientOf, ambient, and_comm]

theorem ambientOf_ambientOf (rows : List (Component α)) (s : Service) :
    ambientOf (ambientOf rows s) s = ambientOf rows s := by
  have hown : ∀ c ∈ ambientOf rows s, c.carrier = .ambient ∧ c.service = s :=
    fun c hc => (mem_ambientOf.1 hc).2
  generalize ambientOf rows s = own at hown
  rw [ambientOf, ambient, List.filter_filter]
  exact List.filter_eq_self.2 fun c hc => by simp [hown c hc]

theorem ambientSeries_eq_ambientOf (f : FlowType) (rows : List (Component α)) (s : Service) :
    ambientSeries f rows s = ((ambientOf rows s).filter (·.flow.type == f)).map (·.values) := by
  rw [ambientSeries_eq, ambientOf, ambient, List.filter_filter, List.filter_filter]
  congr 2
  funext c
  simp only [isAmbient]
  cases c.carrier == .ambient <;> simp [Bool.and_comm]

/-- Every series of a service is used or produced. -/
theorem longest_ambientOf (rows : List (Component α)) (s : Service) :
    longest (ambientUse rows s ++ ambientProduction rows s) =
      longest ((ambientOf rows s).map (·.values)) := by
  have hseries (f : FlowType) := ambientSeries_eq_ambientOf f rows s
  have huse : ambientUse rows s = _ := hseries .consumption
  have hproduction : ambientProduction rows s = _ := hseries .production
  rw [huse, hproduction]
  apply le_antisymm
  · rw [longest_le_iff, List.forall_mem_append]
    have hpart (f : FlowType) :
        ∀ v ∈ ((ambientOf rows s).filter (·.flow.type == f)).map (·.values),
          v.length ≤ longest ((ambientOf rows s).map (·.values)) :=
      fun v hv => length_le_longest ((List.filter_sublist.map _).subset hv)
    exact ⟨hpart _, hpart _⟩
  · rw [longest_le_iff, List.forall_mem_map]
    intro c hc
    refine length_le_longest (List.mem_append.2 ?_)
    cases h : c.flow.type
    · exact .inl (List.mem_map_of_mem (List.mem_filter.2 ⟨hc, by rw [h]; rfl⟩))
    · exact .inr (List.mem_map_of_mem (List.mem_filter.2 ⟨hc, by rw [h]; rfl⟩))

/-! ## What a service lacks -/

variable [Zero α] [Add α] [Sub α] [LT α] [DecidableLT α] [BEq α]

/-- What a service lacks only hangs on its series of ambient energy. -/
theorem missingFor_congr (h : ∀ f, ambientSeries f rows' s = ambientSeries f rows s) :
    missingFor rows' s = missingFor rows s := by
  have hu : ambientUse rows' s = ambientUse rows s := h .consumption
  have hp : ambientProduction rows' s = ambientProduction rows s := h .production
  have hd : deficit rows' s = deficit rows s := by rw [deficit, deficit, hu, hp]
  rw [missingFor, missingFor, hu, hd]

theorem missingFor_eq_of_ambientOf (h : ambientOf rows' s = ambientOf rows s) :
    missingFor rows' s = missingFor rows s :=
  missingFor_congr fun f => by rw [ambientSeries_eq_ambientOf, h, ← ambientSeries_eq_ambientOf]

theorem exists_of_mem_missingProduction {c : Component α} (h : c ∈ missingProduction rows) :
    ∃ s ∈ services (ambient rows),
      c = ⟨.ambient, .onsiteProduction, s, deficit rows s, balanceNote⟩ := by
  obtain ⟨s, hs, hc⟩ := List.mem_filterMap.1 h
  exact ⟨s, hs, (of_missingFor hc).2⟩

/-- What is added is as long as the longest series of its service. -/
theorem length_of_mem_missingProduction_ambientOf {c : Component α}
    (h : c ∈ missingProduction rows) :
    c.values.length = longest ((ambientOf rows c.service).map (·.values)) := by
  obtain ⟨s, -, rfl⟩ := exists_of_mem_missingProduction h
  rw [length_deficit, longest_ambientOf]

theorem filter_service_missingProduction (rows : List (Component α)) (s : Service) :
    (missingProduction rows).filter (fun c => c.service == s) = (missingFor rows s).toList := by
  rw [← filter_missingProduction]
  refine List.filter_congr fun c hc => ?_
  obtain ⟨s', -, rfl⟩ := exists_of_mem_missingProduction hc
  simp [isAmbient, Flow.type]

/-- Of rows of a single service, that service alone can lack something. -/
theorem missingProduction_of_service (h : ∀ c ∈ ambient rows, c.service = s) :
    missingProduction rows = (missingFor rows s).toList := by
  have hown : ∀ c ∈ missingProduction rows, (c.service == s) = true := by
    intro c hc
    obtain ⟨s', hs', rfl⟩ := exists_of_mem_missingProduction hc
    obtain ⟨d, hd, rfl⟩ := List.mem_map.1 (mem_distinct.1 hs')
    exact beq_iff_eq.2 (h d hd)
  rw [← List.filter_eq_self.2 hown, filter_service_missingProduction]

theorem missingProduction_ambientOf (rows : List (Component α)) (s : Service) :
    missingProduction (ambientOf rows s) = (missingFor rows s).toList := by
  rw [missingProduction_of_service, missingFor_eq_of_ambientOf (ambientOf_ambientOf rows s)]
  exact fun c hc => (mem_ambientOf.1 (List.mem_filter.1 hc).1).2.2

/-! ## All services -/

theorem missingProduction_eq_flatMap (rows : List (Component α)) :
    missingProduction rows =
      (services (ambient rows)).flatMap fun s => missingProduction (ambientOf rows s) := by
  simp only [missingProduction_ambientOf]
  exact List.filterMap_eq_flatMap_toList _ _

theorem missingProduction_congr (hs : services (ambient rows') = services (ambient rows))
    (h : ∀ s, ambientOf rows' s = ambientOf rows s) :
    missingProduction rows' = missingProduction rows := by
  rw [missingProduction_eq_flatMap, missingProduction_eq_flatMap rows, hs]
  simp only [h]

/-- **Each service is balanced by itself.**  Only ambient energy counts; what is added is what each
    service lacks if only its rows of ambient energy are there, in the order in which the services
    of these rows first occur; so it is the same for any other rows with the same ambient energy of
    each service and with that order of services.  It is as long as the longest series of its
    service. -/
theorem missingProduction_local (rows : List (Component α)) :
    missingProduction rows = missingProduction (ambient rows) ∧
    missingProduction rows =
      (services (ambient rows)).flatMap (fun s => missingProduction (ambientOf rows s)) ∧
    (∀ rows', services (ambient rows') = services (ambient rows) →
      (∀ s, ambientOf rows' s = ambientOf rows s) →
        missingProduction rows' = missingProduction rows) ∧
    ∀ c ∈ missingProduction rows,
      c.values.length = longest ((ambientOf rows c.service).map (·.values)) := by
  have hambient : ambient (ambient rows) = ambient rows := ambient_ambient rows
  refine ⟨?_, missingProduction_eq_flatMap rows, fun rows' => missingProduction_congr,
    fun c => length_of_mem_missingProduction_ambientOf⟩
  refine (missingProduction_congr (congrArg _ hambient) fun s => ?_).symm
  rw [ambientOf, ambientOf, hambient]

end

/-- Ambient energy for heating and for hot water in turn. -/
def inTurn : List (Component Float) :=
  [⟨.ambient, .assessedUse, .heating, [0.1, 0.3, 0.1], ""⟩,
    ⟨.ambient, .assessedUse, .hotWater, [0.7], ""⟩,
    ⟨.ambient, .otherUse, .heating, [0.2], ""⟩,
    ⟨.ambient, .onsiteProduction, .hotWater, [0.5, 1], ""⟩,
    ⟨.ambient, .assessedUse, .heating, [0.6, 0.7], ""⟩]

/-- The same energy service by service, with gas between the rows. -/
def serviceByService : List (Component Float) :=
  [⟨.naturalGas, .assessedUse, .hotWater, [9], ""⟩,
    ⟨.ambient, .assessedUse, .heating, [0.1, 0.3, 0.1], ""⟩,
    ⟨.ambient, .otherUse, .heating, [0.2], ""⟩,
    ⟨.naturalGas, .assessedUse, .cooling, [4, 4], ""⟩,
    ⟨.ambient, .assessedUse, .heating, [0.6, 0.7], ""⟩,
    ⟨.ambient, .assessedUse, .hotWater, [0.7], ""⟩,
    ⟨.ambient, .onsiteProduction, .hotWater, [0.5, 1], ""⟩]

theorem missingProduction_local_inTurn :
    missingProduction serviceByService = missingProduction inTurn ∧
    ∃ c ∈ missingProduction inTurn, c.service = .heating ∧
      c.values.length = longest ((ambientOf inTurn .heating).map (·.values)) := by
  obtain ⟨-, -, hsame, hlength⟩ := missingProduction_local inTurn
  have hc : ⟨.ambient, .onsiteProduction, .heating, deficit inTurn .heating, balanceNote⟩ ∈
      missingProduction inTurn := by decide +kernel
  exact ⟨hsame _ rfl fun s => by cases s <;> rfl, _, hc, rfl, hlength _ hc⟩

end Component

end PrimaryEnergy
