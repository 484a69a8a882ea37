/-
  A new bundle and its run.

  Inputs that survive being written are read from a new bundle as they are, so a run of the
  bundle leads to what is computed from the inputs themselves.
  The settings are read from the document that they are written as (`Content.document`): the
  text of this document is taken to be read as the document itself.

  * `load_of_init`: what is read from a new bundle;
  * `result_of_load`: a run of a bundle into which all files can be written;
  * `run_of_init`: a new bundle that is run.
-/
import PrimaryEnergy.Proofs.Bundle.Run
import PrimaryEnergy.Proofs.Completion.Text
import PrimaryEnergy.Proofs.Component.Text
import PrimaryEnergy.Proofs.Settings.RoundTrip
import PrimaryEnergy.Proofs.Table.RoundTrip

namespace PrimaryEnergy

/-- A file with the text of a table is read as this text. -/
theorem ComponentTable.readText_text {c : ComponentTable Float} (h : c.IsWritable) :
    (Content.raw c.text).readText = c.text := by
  rw [Content.readText, Content.text, text, Text.plainBreaks_joinLines (oneLine_lines h),
    String.ofList_toList]

namespace Bundle

open FileTree

variable {t u : Files} {p : Path} {l : Loaded} {r : Regulation}
  {algorithm : Option BalanceAlgorithm}

/-! ## Reading a new bundle -/

/-- Inputs that are read as they are from what is written: valid settings, and tables that can
    be written and have the numbers that their texts stand for. -/
structure Loaded.Survives (l : Loaded) : Prop where
  settings : l.settings.IsValid
  components : l.components.IsWritable
  components_rounded : l.components.rounded = l.components
  factors : ∀ w ∈ l.factors, w.IsWritable
  factors_rounded : ∀ w ∈ l.factors, w.rounded = w

/-- A directory that can be made and has no files of a bundle. -/
structure IsFresh (t : Files) (p : Path) : Prop where
  made : ∃ u, t.makeDirectories p = .ok u
  empty : ∀ name ∈ fileNames, t.held p name = none

theorem ne_upward_of_mem_fileNames {name : String} (h : name ∈ fileNames) : name ≠ Path.upward :=
  fun hu => upward_not_mem_fileNames (hu ▸ h)

namespace IsFresh

variable (h : IsFresh t p)
include h

theorem accepts {name : String} (hn : name ∈ fileNames) : t.accepts p name = true := by
  rw [accepts_iff, h.empty name hn]
  exact nofun

/-- A new bundle is written into a fresh directory. -/
theorem exists_init (l : Loaded) : ∃ u, init t p l = (u, none) := by
  obtain ⟨v, hv⟩ := h.made
  obtain ⟨q, hq⟩ := isFolder_of_makeDirectories hv
  have hs := names_contents_sublist l
  obtain ⟨-, -, hnone⟩ := hq.writeAll_children (ne_upward_of_sublist hs) fun f _ =>
    (rfl : _ = v.accepts p f.1)
  rw [init_of_makeDirectories hv]
  refine ⟨_, Prod.ext rfl (hnone.2 fun f hf => ?_)⟩
  have hf' := h.accepts (hs.subset (List.mem_map_of_mem hf))
  rwa [FileTree.accepts, ← held_of_makeDirectories hv] at hf'

/-- The files of a new bundle are in nobody's way. -/
theorem accepts_of_init (hu : init t p l = (u, none)) :
    ∀ name ∈ fileNames, u.accepts p name = true := by
  intro name hn
  rw [(wrote_of_init hu).2.accepts_eq
    (fun f hf => h.accepts ((names_contents_sublist _).subset (List.mem_map_of_mem hf)))
    (ne_upward_of_mem_fileNames hn)]
  exact h.accepts hn

end IsFresh

/-- **A new bundle is read as what it was given**, if that survives being written and no table
    was there before. -/
theorem load_of_init (h : init t p l = (u, none)) (hs : l.Survives)
    (hf : t.held p factorsFile = none) : load u p = .ok l := by
  obtain ⟨⟨q, hq⟩, hw⟩ := wrote_of_init h
  have hfiles := find?_of_wrote (names_contents_sublist l) hq hw
  have hread {name : String} {c : Content} (hm : (name, c) ∈ contents l) :
      u.read (p.child name) = .ok c :=
    hq.read_child (ne_upward_of_sublist (names_contents_sublist l) _ hm) (hfiles _ hm)
  have hsettings : readSettings u p = .ok l.settings := by
    have hdocument : (Content.settings l.settings).document = .ok l.settings.toDocument := rfl
    rw [readSettings, hread (c := .settings l.settings) (by simp [contents])]
    simp only [hdocument, RunSettings.ofDocument_toDocument hs.settings, Except.mapError]
  have hcomponents : readComponents u p = .ok l.components := by
    rw [readComponents, hread (c := .raw l.components.text) (by simp [contents])]
    simp only [ComponentTable.readText_text hs.components,
      ComponentTable.read_text hs.components, hs.components_rounded, Except.mapError]
  have hfactors : readFactors u p = .ok l.factors := by
    cases hl : l.factors with
    | none =>
      have hnot : factorsFile ∉ (contents l).map (·.1) := by
        simp [factorsFile_mem_contents_iff, hl]
      have hhas : u.has (p.child factorsFile) = false := by
        rw [← Bool.not_eq_true, FileTree.has, ← hq.held_eq, hw.isSome_held_iff (by decide), hf]
        simpa using hnot
      rw [readFactors, if_neg (by rw [hhas]; exact Bool.false_ne_true)]
    | some w =>
      have hm : (factorsFile, Content.raw w.text) ∈ contents l := by simp [contents, hl]
      have hhas : u.has (p.child factorsFile) = true := by
        rw [FileTree.has, hfiles _ hm]
        rfl
      rw [readFactors, if_pos hhas, hread hm]
      simp only [FactorTable.readText_text (hs.factors w hl).isPrintable,
        FactorTable.read_text (hs.factors w hl), hs.factors_rounded w hl, Except.map,
        Except.mapError]
  rw [load, if_pos hq.has, hsettings, hcomponents, hfactors]
  rfl

/-! ## Running it -/

/-- A run of a bundle into which all files can be written leads to what it computes. -/
theorem result_of_load (h : load t p = .ok l) (ha : ∀ name ∈ fileNames, t.accepts p name = true)
    (place : String) (r : Regulation) (algorithm : Option BalanceAlgorithm) :
    (run t p place r algorithm).result = l.outcome r algorithm := by
  have ho : outcome t p r algorithm = l.outcome r algorithm := by simp only [outcome, h]
  cases hl : l.outcome r algorithm with
  | error e => exact (run_of_error (ho.trans hl) place).2
  | ok y =>
    refine result_of_outcome (ho.trans hl) (fun f hf => ha _ ?_) place
    exact (names_results_sublist y.1 r y.2).subset (List.mem_map_of_mem hf)

/-- What can be prepared of inputs that survive being written, a run of a new bundle prepares. -/
theorem IsFresh.exists_run {x : Prepared} (hp : IsFresh t p) (hs : l.Survives)
    (hx : l.settings.prepare l.components l.factors r = .ok x) (place : String) :
    ∃ u, load u p = .ok l ∧ (run u p place r none).result = .ok (x, none) := by
  obtain ⟨u, hu⟩ := hp.exists_init l
  have hload : load u p = .ok l := load_of_init hu hs (hp.empty _ (by simp [fileNames]))
  refine ⟨u, hload, ?_⟩
  rw [result_of_load hload (hp.accepts_of_init hu), Loaded.outcome_none]
  exact congrArg (Except.map fun x => (x, none)) hx

/-- **The bundle and the memory agree.**  Inputs that survive being written can be written as a
    new bundle into a fresh directory; what is read there are these inputs, and a run leads to
    what is prepared from them, or fails as this does.  A balance is computed from the same. -/
theorem run_of_init {d : Document} {s : RunSettings} {c : ComponentTable Float}
    {w : Option (FactorTable Float)} (hs : RunSettings.ofDocument d = .ok s)
    (hc : c.IsWritable) (hc' : c.rounded = c) (hw : ∀ v ∈ w, v.IsWritable)
    (hw' : ∀ v ∈ w, v.rounded = v) (hp : IsFresh t p) :
    ∃ u, init t p ⟨s, c, w⟩ = (u, none) ∧ load u p = .ok ⟨s, c, w⟩ ∧
      (∀ place r, (run u p place r none).result = (s.prepare c w r).map fun x => (x, none)) ∧
      ∀ place r algorithm,
        (run u p place r algorithm).result = Loaded.outcome ⟨s, c, w⟩ r algorithm := by
  have hl : (⟨s, c, w⟩ : Loaded).Survives :=
    ⟨RunSettings.isValid_of_ofDocument hs, hc, hc', hw, hw'⟩
  obtain ⟨u, hu⟩ := hp.exists_init ⟨s, c, w⟩
  have hload : load u p = .ok ⟨s, c, w⟩ := load_of_init hu hl (hp.empty _ (by simp [fileNames]))
  have hrun := result_of_load hload (hp.accepts_of_init hu)
  exact ⟨u, hu, hload, fun place r => (hrun place r none).trans (Loaded.outcome_none _ r), hrun⟩

/-- Settings with a location that is not written in capitals. -/
def coastalSettings : Document :=
  .object [("run_id", .text "coast"), ("location", .text " canarias ")]

/-- Gas for heating. -/
def gasBoiler : ComponentTable Float :=
  ⟨[], [⟨.naturalGas, .assessedUse, .heating, [10, 20.5], "Caldera"⟩]⟩

theorem run_of_init_coastal :
    ∃ s u, RunSettings.ofDocument coastalSettings = .ok s ∧ s.location = some "CANARIAS" ∧
      init {} (.ofText "runs/coast") ⟨s, gasBoiler, some CommandLine.gridOnly⟩ = (u, none) ∧
      (run u (.ofText "runs/coast") "runs/coast" .current none).result =
        (s.prepare gasBoiler (some CommandLine.gridOnly) .current).map fun x => (x, none) := by
  have hs : RunSettings.ofDocument coastalSettings =
      .ok { runId := "coast", location := some "CANARIAS" } := by rfl
  have hc : gasBoiler.IsWritable := by decide
  have hc' : gasBoiler.rounded = gasBoiler := by decide +kernel
  have hw : ∀ v ∈ some CommandLine.gridOnly, v.IsWritable := by
    simpa using CommandLine.isWritable_gridOnly
  have hw' : ∀ v ∈ some CommandLine.gridOnly, v.rounded = v := by decide +kernel
  have hp : IsFresh {} (.ofText "runs/coast") := ⟨⟨_, rfl⟩, by decide +kernel⟩
  obtain ⟨u, hu, -, hrun, -⟩ := run_of_init hs hc hc' hw hw' hp
  exact ⟨_, u, hs, rfl, hu, hrun "runs/coast" .current⟩

end Bundle

end PrimaryEnergy
