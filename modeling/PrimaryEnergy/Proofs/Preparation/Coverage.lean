/-
  Coverage: the factors that prepared components find.

  Factors are completed without a look at the components, then converted and pruned.
  Conversion keeps all keys, and pruning keeps those that the components make use of.

  * `mem_factors_iff`: the keys of prepared factors;
  * `coverage_of_prepare`: which components find the supply of their carrier from the grid;
    under the regulation in force, with a location, all do;
  * `exports_of_prepare`: every production that is exported finds its factors.
-/
import PrimaryEnergy.Preparation
import PrimaryEnergy.Proofs.Completion.Supply
import PrimaryEnergy.Proofs.Factor.Perimeter
import PrimaryEnergy.Regulation.Current

namespace PrimaryEnergy

open Completion

/-! ## Productions and their sources -/

namespace Component

variable {α : Type}

/-- The source that has the name of the subtype of a component. -/
def source? (x : Component α) : Option Source := Token.ofText? (Token.text x.flow.subtype)

theorem source?_eq_some_iff {x : Component α} {o : Source} :
    x.source? = some o ↔
      (o = .onsite ∧ x.flow = .onsiteProduction) ∨
      (o = .cogeneration ∧ x.flow = .cogeneratedProduction) := by
  have hsource (f : Flow) : Token.ofText? (Token.text f.subtype) = some o ↔
      (o = .onsite ∧ f = .onsiteProduction) ∨
      (o = .cogeneration ∧ f = .cogeneratedProduction) := by
    cases f <;> cases o <;> decide
  exact hsource x.flow

end Component

/-! ## Prepared factors -/

namespace RunSettings

variable {s : RunSettings} {c : ComponentTable Float} {t : Option (FactorTable Float)}
  {r : Regulation} {p : Prepared}

theorem prepare_eq_ok_iff :
    s.prepare c t r = .ok p ↔
      ∃ raw full, s.rawFactors t r = .ok raw ∧
        raw.complete s.overrides r.defaults s.strip = .ok full ∧
        p = ⟨s.prepareComponents c, s.adapt (s.prepareComponents c) full⟩ := by
  unfold prepare
  cases hraw : s.rawFactors t r with
  | error e => simp
  | ok raw =>
    cases hfull : raw.complete s.overrides r.defaults s.strip with
    | error e => simp [hfull]
    | ok full => simp [hfull, eq_comm]

theorem mem_keys_adapt {u : FactorTable Float} {k : Factor.Key} :
    k ∈ (s.adapt c u).keys ↔ k ∈ u.keys ∧ (s.prune = true → k.isUsedBy c.rows = true) := by
  unfold adapt
  cases s.nearby <;> cases s.prune <;>
    simp [FactorTable.mem_keys_prune, FactorTable.keys_toNearby]

/-- Prepared factors are those of the completed table, unless they are pruned. -/
theorem mem_factors_iff (h : s.prepare c t r = .ok p) :
    ∃ raw full, s.rawFactors t r = .ok raw ∧
      raw.complete s.overrides r.defaults s.strip = .ok full ∧
      ∀ k, k ∈ p.factors.keys ↔
        k ∈ full.keys ∧ (s.prune = true → k.isUsedBy p.components.rows = true) := by
  obtain ⟨raw, full, hraw, hfull, rfl⟩ := prepare_eq_ok_iff.1 h
  exact ⟨raw, full, hraw, hfull, fun k => mem_keys_adapt⟩

/-- Supply from the grid is never pruned if a component has the carrier. -/
theorem isUsedBy_gridSupply {x : Component Float} {rows : List (Component Float)} (hx : x ∈ rows) :
    (gridSupply x.carrier).isUsedBy rows = true :=
  Factor.Key.isUsedBy_iff.2 ⟨⟨x, hx, rfl⟩, nofun, nofun, fun _ => nofun⟩

/-- A component finds the supply of its carrier from the grid if the table that was completed
    has the carrier, or completion adds the supply. -/
theorem gridSupply_mem_factors (h : s.prepare c t r = .ok p) {raw : FactorTable Float}
    (hraw : s.rawFactors t r = .ok raw) {x : Component Float} (hx : x ∈ p.components.rows) :
    gridSupply x.carrier ∈ p.factors.keys ↔
      x.carrier ∈ Factor.carriers raw.rows ∨ x.carrier ∈ [.ambient, .district1, .district2] := by
  obtain ⟨raw', full, hraw', hfull, hkeys⟩ := mem_factors_iff h
  obtain rfl : raw' = raw := Except.ok.inj (hraw'.symm.trans hraw)
  rw [hkeys, ← FactorTable.gridSupply_mem_iff hfull]
  exact and_iff_left fun _ => isUsedBy_gridSupply hx

/-- The tables of the regulation in force leave out no carrier but those that are added. -/
theorem carriers_table_current {name : String} {raw : FactorTable Float}
    (h : Regulation.current.table name = .ok raw) (k : Carrier) :
    k ∈ Factor.carriers raw.rows ∨ k ∈ [.ambient, .district1, .district2] := by
  have hall : ∀ l ∈ Regulation.current.locations,
      k ∈ Factor.carriers l.table.rows ∨ k ∈ [.ambient, .district1, .district2] := by
    cases k <;> decide
  unfold Regulation.table at h
  split at h
  · cases h
  · rename_i l hl
    have hrows : raw.rows = l.table.rows := by
      cases h
      split <;> rfl
    rw [hrows]
    exact hall l (List.mem_of_find?_eq_some hl)

/-- **Which components find the supply of their carrier from the grid**: those whose carrier is
    in the table that was completed, or is one that completion adds.  Under the regulation in
    force a location leaves none out. -/
theorem coverage_of_prepare (h : s.prepare c t r = .ok p) :
    (∃ raw, s.rawFactors t r = .ok raw ∧ ∀ x ∈ p.components.rows,
      (gridSupply x.carrier ∈ p.factors.keys ↔
        x.carrier ∈ Factor.carriers raw.rows ∨ x.carrier ∈ [.ambient, .district1, .district2])) ∧
    (r = Regulation.current → s.location.isSome = true →
      ∀ x ∈ p.components.rows, gridSupply x.carrier ∈ p.factors.keys) := by
  obtain ⟨raw, -, hraw, -⟩ := mem_factors_iff h
  refine ⟨⟨raw, hraw, fun x hx => gridSupply_mem_factors h hraw hx⟩, ?_⟩
  rintro rfl hs x hx
  obtain ⟨name, hname⟩ := Option.isSome_iff_exists.1 hs
  rw [gridSupply_mem_factors h hraw hx]
  simp only [rawFactors, hname] at hraw
  cases ht : Regulation.current.table name with
  | error e => rw [ht] at hraw; cases hraw
  | ok raw' =>
    rw [ht] at hraw
    cases hraw
    exact carriers_table_current ht x.carrier

/-- Preparation succeeds if there are factors that can be completed. -/
theorem exists_prepare_eq_ok {raw : FactorTable Float} (hraw : s.rawFactors t r = .ok raw)
    (hv : verdict raw.keys = none) (c : ComponentTable Float) :
    ∃ p, s.prepare c t r = .ok p ∧ p.components = s.prepareComponents c := by
  obtain ⟨full, hfull⟩ := FactorTable.exists_complete_eq_ok hv s.overrides r.defaults s.strip
  exact ⟨_, prepare_eq_ok_iff.2 ⟨raw, full, hraw, hfull, rfl⟩, rfl⟩

/-- Natural gas for heating. -/
def gasHeating : Component Float := ⟨.naturalGas, .assessedUse, .heating, [10], ""⟩

/-- Electricity from the grid. -/
def electricityOnly : FactorTable Float := ⟨[], [⟨gridSupply .electricity, ⟨1, 2⟩, ""⟩]⟩

/-- A run with the factors that it is given. -/
def plainRun : RunSettings := { runId := "plain" }

/-- A run with the factors of the mainland. -/
def mainlandRun : RunSettings := { runId := "mainland", location := some "PENINSULA" }

theorem exists_prepare_gasHeating {raw : FactorTable Float} (hs : s.service = none)
    (hraw : s.rawFactors t r = .ok raw) (hv : verdict raw.keys = none) :
    ∃ p, s.prepare ⟨[], [gasHeating]⟩ t r = .ok p ∧ gasHeating ∈ p.components.rows := by
  obtain ⟨p, hp, hc⟩ := exists_prepare_eq_ok hraw hv ⟨[], [gasHeating]⟩
  refine ⟨p, hp, ?_⟩
  simp [hc, prepareComponents, hs, ComponentTable.balance]

theorem coverage_of_prepare_gasHeating :
    (∃ p, plainRun.prepare ⟨[], [gasHeating]⟩ (some electricityOnly) .current = .ok p ∧
      gasHeating ∈ p.components.rows ∧ gridSupply .naturalGas ∉ p.factors.keys) ∧
    ∃ p, mainlandRun.prepare ⟨[], [gasHeating]⟩ none .current = .ok p ∧
      gasHeating ∈ p.components.rows ∧ gridSupply .naturalGas ∈ p.factors.keys := by
  constructor
  · have hraw : plainRun.rawFactors (some electricityOnly) .current = .ok electricityOnly := rfl
    obtain ⟨p, hp, hx⟩ := exists_prepare_gasHeating rfl hraw (by decide)
    obtain ⟨⟨raw, hraw', hcovered⟩, -⟩ := coverage_of_prepare hp
    obtain rfl : electricityOnly = raw := Except.ok.inj (hraw.symm.trans hraw')
    exact ⟨p, hp, hx, fun hm => absurd ((hcovered _ hx).1 hm) (by decide)⟩
  · have hraw : mainlandRun.rawFactors none .current =
        .ok (Regulation.territory "PENINSULA" "peninsular" 414 1954).table := rfl
    obtain ⟨p, hp, hx⟩ := exists_prepare_gasHeating rfl hraw (by decide)
    exact ⟨p, hp, hx, (coverage_of_prepare hp).2 rfl rfl _ hx⟩

/-- Prepared factors need not cover the components. -/
theorem not_gridSupply_mem_of_prepare :
    ¬ ∀ (s : RunSettings) (c : ComponentTable Float) (t : Option (FactorTable Float))
        (r : Regulation) (p : Prepared), s.prepare c t r = .ok p →
      ∀ x ∈ p.components.rows, gridSupply x.carrier ∈ p.factors.keys := by
  intro h
  have hraw : plainRun.rawFactors (some electricityOnly) .current = .ok electricityOnly := rfl
  obtain ⟨p, hp, hx⟩ := exists_prepare_gasHeating rfl hraw (by decide)
  have hm := (gridSupply_mem_factors hp hraw hx).1 (h _ _ _ _ _ hp _ hx)
  exact absurd hm (by decide)

/-! ## Exports -/

/-- The rows for an export are used by a production of this kind; those for other uses need
    such a use besides. -/
theorem isUsedBy_export {rows : List (Component Float)} {x : Component Float} (hx : x ∈ rows)
    {o : Source} (ho : x.source? = some o) {d : Dest} (k : Step) :
    (⟨x.carrier, o, d, k⟩ : Factor.Key).isUsedBy rows = true ↔
      (d = .toOtherUses → ∃ y ∈ rows, y.flow = .otherUse) := by
  rw [Factor.Key.isUsedBy_iff]
  constructor
  · exact fun h => h.2.2.1
  · intro h
    rcases Component.source?_eq_some_iff.1 ho with ⟨rfl, hf⟩ | ⟨rfl, hf⟩
    · exact ⟨⟨x, hx, rfl⟩, nofun, h, fun hc _ => ⟨x, hx, hc, hf⟩⟩
    · exact ⟨⟨x, hx, rfl⟩, fun _ => ⟨x, hx, hf⟩, h, fun _ => nofun⟩

theorem export_mem_factors (h : s.prepare c t r = .ok p) {x : Component Float}
    (hx : x ∈ p.components.rows) {o : Source} (ho : x.source? = some o)
    (he : (x.carrier, o) ∈ exported) (d : Dest) (hd : d ≠ .supply) (k : Step) :
    ⟨x.carrier, o, d, k⟩ ∈ p.factors.keys ↔
      (d = .toOtherUses → s.strip = false ∧
        (s.prune = true → ∃ y ∈ p.components.rows, y.flow = .otherUse)) := by
  obtain ⟨raw, full, -, hfull, hkeys⟩ := mem_factors_iff h
  rw [hkeys, FactorTable.export_mem_iff hfull he hd, isUsedBy_export hx ho]
  constructor
  · rintro ⟨hs, hu⟩ hd'
    exact ⟨Bool.eq_false_iff.2 fun hs' => hs hs' hd', fun hp => hu hp hd'⟩
  · intro hall
    refine ⟨fun hs hd' => ?_, fun hp hd' => (hall hd').2 hp⟩
    rw [(hall hd').1] at hs
    exact Bool.false_ne_true hs

theorem gridSupply_mem_of_exported (h : s.prepare c t r = .ok p) {x : Component Float}
    (hx : x ∈ p.components.rows) {o : Source} (he : (x.carrier, o) ∈ exported) :
    gridSupply x.carrier ∈ p.factors.keys := by
  have hcarriers : ∀ e ∈ exported, e.1 = .electricity ∨ e.1 = .ambient := by decide
  obtain ⟨raw, full, hraw, hfull, -⟩ := mem_factors_iff h
  rw [gridSupply_mem_factors h hraw hx]
  rcases hcarriers _ he with hc | hc <;> simp only at hc
  -- completion fails on a table without electricity, whatever the components are
  · obtain ⟨-, helectricity, -⟩ := verdict_eq_none_iff.1 (FactorTable.keys_of_complete hfull).1
    rw [hc]
    exact Or.inl (mem_carriers_iff.2 helectricity)
  · exact Or.inr (by simp [hc])

/-- **Every production that is exported finds its factors**: those for export to the grid and for
    supply from there always, and those for other uses unless they have been removed. -/
theorem exports_of_prepare (h : s.prepare c t r = .ok p) {x : Component Float}
    (hx : x ∈ p.components.rows) {o : Source} (ho : x.source? = some o)
    (he : (x.carrier, o) ∈ exported) :
    gridSupply x.carrier ∈ p.factors.keys ∧
    ∀ k : Step, ⟨x.carrier, o, .toGrid, k⟩ ∈ p.factors.keys ∧
      (⟨x.carrier, o, .toOtherUses, k⟩ ∈ p.factors.keys ↔
        s.strip = false ∧
          (s.prune = false ∨ ∃ y ∈ p.components.rows, y.flow.subtype = .notAssessed)) := by
  have huse (y : Component Float) : y.flow = .otherUse ↔ y.flow.subtype = .notAssessed := by
    cases y.flow <;> simp [Flow.subtype]
  refine ⟨gridSupply_mem_of_exported h hx he, fun k => ⟨?_, ?_⟩⟩
  · exact (export_mem_factors h hx ho he .toGrid (by decide) k).2 fun hd => absurd hd (by decide)
  · rw [export_mem_factors h hx ho he .toOtherUses (by decide) k]
    simp only [forall_const, huse]
    cases s.prune <;> simp

/-- Electricity that is cogenerated, and electricity for other uses. -/
def cogenerating : ComponentTable Float :=
  ⟨[], [⟨.electricity, .cogeneratedProduction, .heating, [5], ""⟩,
    ⟨.electricity, .otherUse, .heating, [3], ""⟩]⟩

/-- A run for heating that keeps the factors for other uses and makes all other changes. -/
def heatingRun : RunSettings :=
  { runId := "heating", strip := false, service := some .heating, nearby := true, prune := true }

theorem exports_of_prepare_cogenerating :
    ∃ p, heatingRun.prepare cogenerating (some electricityOnly) .current = .ok p ∧
      ⟨.electricity, .cogeneratedProduction, .heating, [5], ""⟩ ∈ p.components.rows ∧
      gridSupply .electricity ∈ p.factors.keys ∧
      ∀ k : Step, ⟨.electricity, .cogeneration, .toGrid, k⟩ ∈ p.factors.keys ∧
        ⟨.electricity, .cogeneration, .toOtherUses, k⟩ ∈ p.factors.keys := by
  have hraw : heatingRun.rawFactors (some electricityOnly) .current = .ok electricityOnly := rfl
  obtain ⟨p, hp, hc⟩ := exists_prepare_eq_ok hraw (by decide) cogenerating
  have hrows : ∀ x ∈ cogenerating.rows, x.service = .heating → x ∈ p.components.rows := by
    intro x hx hs
    rw [hc]
    refine List.mem_append_left _ (List.mem_filter.2 ⟨List.mem_append_left _ hx, ?_⟩)
    simp [hs]
  have hx := hrows _ List.mem_cons_self rfl
  have hy := hrows _ (List.mem_cons_of_mem _ List.mem_cons_self) rfl
  obtain ⟨hgrid, hexports⟩ :=
    exports_of_prepare hp hx (Component.source?_eq_some_iff.2 (.inr ⟨rfl, rfl⟩)) (by decide)
  refine ⟨p, hp, hx, hgrid, fun k => ⟨(hexports k).1, (hexports k).2.2 ⟨rfl, Or.inr ⟨_, hy, rfl⟩⟩⟩⟩

end RunSettings

end PrimaryEnergy
