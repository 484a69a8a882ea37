/-
  The file of prepared components, read back.

  What a run prepares is balanced, but the file shows each row with two decimals, and sums are
  computed with rounding.  So a run that reads the file may find a little ambient energy that no
  production covers.

  * `isCovered_prepareComponents`: prepared components are covered, also those of one service;
  * `read_preparedFile`: what the file is read as;
  * `preparedFile_nearly_balanced`: how much can be missing there.
-/
import PrimaryEnergy.Proofs.Bundle.Agreement
import PrimaryEnergy.Proofs.Component.Covered
import PrimaryEnergy.Proofs.Preparation.Coverage

namespace PrimaryEnergy

open Decimal

namespace RunSettings

variable {c : ComponentTable Float}

theorem isWritable_prepareComponents (s : RunSettings) (h : c.IsWritable) :
    (s.prepareComponents c).IsWritable := by
  unfold prepareComponents
  split
  · exact ComponentTable.isWritable_select (ComponentTable.isWritable_balance h) _
  · exact ComponentTable.isWritable_balance h

/-- Whatever service is selected, prepared components are covered up to rounding. -/
theorem isCovered_prepareComponents (s : RunSettings)
    (h : ∀ d ∈ c.rows, ∀ v ∈ d.values, 0 ≤ v) (v : Service) :
    Component.IsCovered (s.prepareComponents c).rows v := by
  have hbalance (v : Service) : Component.IsCovered c.balance.rows v :=
    Component.isCovered_balance h v
  unfold prepareComponents
  split
  · exact Component.IsCovered.ofService hbalance _ v
  · exact hbalance v

end RunSettings

namespace Bundle

open FileTree

variable {t : Files} {p : Path} {l : Loaded} {x : Prepared} {r : Regulation}
  {algorithm : Option BalanceAlgorithm} {b : Option Balance}

theorem isWritable_components_of_load (h : load t p = .ok l) : l.components.IsWritable := by
  have hread := (of_load h).2.1
  unfold readComponents at hread
  split at hread
  · cases hread
  · rename_i content _
    cases hc : ComponentTable.read content.readText with
    | error e => rw [hc] at hread; cases hread
    | ok c =>
      rw [hc] at hread
      obtain rfl : c = l.components := Except.ok.inj hread
      exact ComponentTable.isWritable_of_read hc

/-- **The file of prepared components is read as what it shows.** -/
theorem read_preparedFile {place : String} (hl : load t p = .ok l)
    (h : (run t p place r algorithm).result = .ok (x, b)) :
    x.components = l.settings.prepareComponents l.components ∧
    ∃ c, (run t p place r algorithm).files.read (p.child preparedFile) = .ok c ∧
      ComponentTable.read c.readText = .ok x.components.rounded := by
  obtain ⟨ho, hw⟩ := outcome_of_run h
  obtain ⟨l', hl', hx⟩ := prepare_of_outcome ho
  obtain rfl : l = l' := Except.ok.inj (hl.symm.trans hl')
  have hcomponents : x.components = l.settings.prepareComponents l.components := by
    obtain ⟨raw, full, -, -, rfl⟩ := RunSettings.prepare_eq_ok_iff.1 hx
    rfl
  have hwritable : x.components.IsWritable := hcomponents ▸
    l.settings.isWritable_prepareComponents (isWritable_components_of_load hl)
  have hfile : (preparedFile, Content.raw x.components.text) ∈ results x r b := by
    simp [results]
  refine ⟨hcomponents, _, read_of_writeResults hw hfile, ?_⟩
  rw [ComponentTable.readText_text hwritable]
  exact ComponentTable.read_text hwritable

/-- **The file of prepared components is nearly balanced.**  What is read from it are the prepared
    components with two decimals, and for each service what is used is produced, too, up to half
    of the last place for each series and up to the roundings of sums; no more than that is found
    missing, and nothing for a service with one series of use and one of production at most. -/
theorem preparedFile_nearly_balanced {place : String} (hl : load t p = .ok l)
    (hn : ∀ c ∈ l.components.rows, ∀ v ∈ c.values, 0 ≤ v)
    (h : (run t p place r algorithm).result = .ok (x, b)) :
    ∃ c u, (run t p place r algorithm).files.read (p.child preparedFile) = .ok c ∧
      ComponentTable.read c.readText = .ok u ∧
      x.components.IsTranscript Component.IsTranscript u ∧
      Component.IsNearlyBalanced u.rows := by
  obtain ⟨hx, c, hc, hread⟩ := read_preparedFile hl h
  refine ⟨c, _, hc, hread, (Table.isTranscript_iff Component.isTranscript_iff).2 rfl, ?_⟩
  rw [hx]
  exact Component.isNearlyBalanced_rounded (l.settings.isCovered_prepareComponents hn)

/-- Two heat pumps that heat, without declared production. -/
def twoHeatPumps : ComponentTable Float :=
  ⟨[], [⟨.ambient, .assessedUse, .heating, [0.1], ""⟩,
    ⟨.ambient, .assessedUse, .heating, [0.2], ""⟩]⟩

/-- A bundle with the two heat pumps. -/
def pumpBundle : Loaded := ⟨{ runId := "pumps" }, twoHeatPumps, some CommandLine.gridOnly⟩

theorem nonneg_twoHeatPumps : ∀ c ∈ twoHeatPumps.rows, ∀ v ∈ c.values, 0 ≤ v := by
  decide +kernel

theorem run_pumpBundle : ∃ u x, load u (.ofText "pumps") = .ok pumpBundle ∧
    (run u (.ofText "pumps") "pumps" .current none).result = .ok (x, none) := by
  have hs : pumpBundle.Survives :=
    ⟨⟨nofun, by decide +kernel⟩, by decide, by decide +kernel,
      by simpa [pumpBundle] using CommandLine.isWritable_gridOnly, by decide +kernel⟩
  have hp : IsFresh {} (.ofText "pumps") := ⟨⟨_, rfl⟩, by decide +kernel⟩
  have hraw : pumpBundle.settings.rawFactors pumpBundle.factors .current =
      .ok CommandLine.gridOnly := rfl
  obtain ⟨x, hx, -⟩ := RunSettings.exists_prepare_eq_ok hraw (by decide) pumpBundle.components
  obtain ⟨u, hload, hrun⟩ := hp.exists_run hs hx "pumps"
  exact ⟨u, x, hload, hrun⟩

theorem preparedFile_nearly_balanced_pumps : ∃ t x c u,
    (run t (.ofText "pumps") "pumps" .current none).result = .ok (x, none) ∧
    (run t (.ofText "pumps") "pumps" .current none).files.read
      (Path.child (.ofText "pumps") preparedFile) = .ok c ∧
    ComponentTable.read c.readText = .ok u ∧ Component.IsNearlyBalanced u.rows := by
  obtain ⟨t, x, hload, hrun⟩ := run_pumpBundle
  obtain ⟨c, u, hc, hread, -, hbalanced⟩ :=
    preparedFile_nearly_balanced hload nonneg_twoHeatPumps hrun
  exact ⟨t, x, c, u, hrun, hc, hread, hbalanced⟩

/-- The file of prepared components need not be balanced: the sum of 0.1 and 0.2 is computed as
    more than 0.3. -/
theorem not_preparedFile_balanced :
    ¬ ∀ (t : Files) (p : Path) (place : String) (r : Regulation)
        (algorithm : Option BalanceAlgorithm) (l : Loaded) (x : Prepared) (b : Option Balance),
      load t p = .ok l → (∀ c ∈ l.components.rows, ∀ v ∈ c.values, 0 ≤ v) →
      (run t p place r algorithm).result = .ok (x, b) →
        ∃ c u, (run t p place r algorithm).files.read (p.child preparedFile) = .ok c ∧
          ComponentTable.read c.readText = .ok u ∧ Component.missingProduction u.rows = [] := by
  intro h
  obtain ⟨t, x, hload, hrun⟩ := run_pumpBundle
  obtain ⟨c, u, hfile, hread, hnone⟩ := h _ _ _ _ _ _ _ _ hload nonneg_twoHeatPumps hrun
  obtain ⟨hx, c', hfile', hread'⟩ := read_preparedFile hload hrun
  obtain rfl : c' = c := Except.ok.inj (hfile'.symm.trans hfile)
  obtain rfl : x.components.rounded = u := Except.ok.inj (hread'.symm.trans hread)
  rw [hx] at hnone
  have hsome : Component.missingProduction
      (pumpBundle.settings.prepareComponents pumpBundle.components).rounded.rows ≠ [] := by
    decide +kernel
  exact hsome hnone

end Bundle

end PrimaryEnergy
