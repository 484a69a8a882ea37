/-
  The inputs of a run.

  A run writes its results only after all has been computed, under names that no run reads.  So
  the inputs stay, whatever comes of the run, and a run that is made once more computes the same.

  * `outcome_eq_error_iff`: the stages that come before the results are written;
  * `outcome_congr`: what is computed only depends on the input files;
  * `run_again`: the same run, made again after a success;
  * `inputs_of_run`: what a run leaves as it was, and what it repeats.
-/
import PrimaryEnergy.Proofs.Bundle.Validation

namespace PrimaryEnergy

namespace Bundle

open FileTree

variable {t u : Files} {p q q' : Path} {l : Loaded} {x : Prepared} {r : Regulation}
  {algorithm : Option BalanceAlgorithm} {b : Option Balance} {e : Fault} {place : String}

/-! ## Failures before anything is written -/

/-- The failures of a run before it writes: the bundle cannot be read, its inputs cannot be
    prepared (balanced, selected, completed, converted and pruned), or the balance algorithm
    fails on them. -/
inductive FailsBefore (t : Files) (p : Path) (r : Regulation)
    (algorithm : Option BalanceAlgorithm) (e : Fault) : Prop
  | reading (h : load t p = .error e)
  | preparing {l : Loaded} (hl : load t p = .ok l)
      (h : l.settings.prepare l.components l.factors r = .error e)
  | balancing (h : AlgorithmFails t p r algorithm e)

/-- What is computed fails in one of these stages, and in no other. -/
theorem outcome_eq_error_iff :
    outcome t p r algorithm = .error e ↔ FailsBefore t p r algorithm e := by
  constructor
  · intro h
    rcases of_outcome_error h with hl | ⟨l, hl, hx⟩ | ha
    · exact .reading hl
    · exact .preparing hl hx
    · exact .balancing ha
  · rintro (hl | ⟨hl, hx⟩ | ⟨compute, hc, l, x, hl, hx, hb⟩)
    · simp only [outcome, hl]
    · simp only [outcome, hl, Loaded.outcome, hx]
    · obtain rfl : algorithm = some compute := hc
      simp only [outcome, hl, Loaded.outcome, hx, computeBalance, hb]
      rfl

/-! ## What a run reads -/

/-- What is read only depends on the input files. -/
theorem load_congr (ht : t.IsFolder p q) (hu : u.IsFolder p q')
    (h : ∀ name ∈ inputFiles, u.find? (p.child name) = t.find? (p.child name)) :
    load u p = load t p := by
  have hread (name : String) (hn : name ∈ inputFiles) :
      u.read (p.child name) = t.read (p.child name) := by
    have hup := ne_upward_of_mem_inputFiles hn
    rw [hu.read_child_eq hup, ht.read_child_eq hup, h name hn]
  have hsettings : readSettings u p = readSettings t p := by
    rw [readSettings, readSettings, hread settingsFile (by simp [inputFiles])]
  have hcomponents : readComponents u p = readComponents t p := by
    rw [readComponents, readComponents, hread componentsFile (by simp [inputFiles])]
  have hfactors : readFactors u p = readFactors t p := by
    have hmem : factorsFile ∈ inputFiles := by simp [inputFiles]
    rw [readFactors, readFactors, hread factorsFile hmem, FileTree.has, h factorsFile hmem,
      FileTree.has]
  rw [load, load, if_pos hu.has, if_pos ht.has, hsettings, hcomponents, hfactors]

theorem outcome_congr (ht : t.IsFolder p q) (hu : u.IsFolder p q')
    (h : ∀ name ∈ inputFiles, u.find? (p.child name) = t.find? (p.child name)) :
    outcome u p r algorithm = outcome t p r algorithm := by
  rw [outcome, outcome, load_congr ht hu h]

/-! ## A run that is made again -/

/-- Results that have been written can be written again. -/
theorem writeResults_again (ht : t.IsFolder p q) (h : writeResults t p x r b = (u, none)) :
    (writeResults u p x r b).2 = none := by
  have hup := ne_upward_of_sublist (names_results_sublist x r b)
  rw [writeResults_of_isFolder ht] at h
  obtain ⟨-, -, hnone⟩ := ht.writeAll_children hup fun f _ => (rfl : _ = t.accepts p f.1)
  obtain ⟨hu, hw⟩ := ht.wrote_of_writeAll_children hup h
  have haccepts : ∀ f ∈ results x r b, t.accepts p f.1 = true := hnone.1 (by rw [h])
  rw [writeResults_of_isFolder hu]
  -- what has been written are files, and files can be replaced
  refine (hu.writeAll_children hup fun f _ => (rfl : _ = u.accepts p f.1)).2.2.2 fun f hf => ?_
  rw [hw.accepts_eq haccepts (hup f hf)]
  exact haccepts f hf

/-- **The same run, made again after a success**, succeeds with the same result. -/
theorem run_again (h : (run t p place r algorithm).result = .ok (x, b)) (place' : String) :
    (run (run t p place r algorithm).files p place' r algorithm).result = .ok (x, b) := by
  obtain ⟨ho, hw⟩ := outcome_of_run h
  obtain ⟨⟨q, ht, hu⟩, hinputs⟩ := find?_of_run h
  have hagain := (outcome_congr ht hu hinputs).trans ho
  rw [(run_of_ok hagain place').2, writeResults_again ht hw]

/-- The files of the results after a success. -/
theorem find?_results_of_run (h : (run t p place r algorithm).result = .ok (x, b)) :
    ∀ f ∈ results x r b,
      (run t p place r algorithm).files.find? (p.child f.1) = some (.file f.2) := by
  obtain ⟨q, -, hfiles⟩ := find?_of_writeResults (outcome_of_run h).2
  exact hfiles

/-- **What a run leaves as it was, and what it repeats.**  The inputs are the same afterwards,
    whatever comes of the run.  A run that fails before it writes changes nothing at all, and
    what else can fail is writing.  After a success the same run succeeds once more, with the
    same result, and all that it writes is there already. -/
theorem inputs_of_run (t : Files) (p : Path) (place : String) (r : Regulation)
    (algorithm : Option BalanceAlgorithm) :
    (∀ name ∈ inputFiles,
      (run t p place r algorithm).files.find? (p.child name) = t.find? (p.child name)) ∧
    (∀ e, FailsBefore t p r algorithm e →
      (run t p place r algorithm).result = .error e ∧
        (run t p place r algorithm).files = t) ∧
    (∀ e, (run t p place r algorithm).result = .error e →
      FailsBefore t p r algorithm e ∨
        ∃ x b e', outcome t p r algorithm = .ok (x, b) ∧
          (writeResults t p x r b).2 = some e' ∧ e = .file e') ∧
    ∀ x b, (run t p place r algorithm).result = .ok (x, b) →
      let u := (run t p place r algorithm).files
      (run u p place r algorithm).result = .ok (x, b) ∧
      ∀ f ∈ results x r b, u.find? (p.child f.1) = some (.file f.2) ∧
        (run u p place r algorithm).files.find? (p.child f.1) = some (.file f.2) := by
  refine ⟨fun name hn => ?_, fun e he => ?_, fun e he => ?_, fun x b h => ?_⟩
  · exact find?_run t p place r algorithm (ne_upward_of_mem_inputFiles hn)
      (not_mem_outputFiles_of_mem_inputFiles hn)
  · exact (run_of_error (outcome_eq_error_iff.2 he) place).symm
  · exact (of_run_error he).imp_left outcome_eq_error_iff.1
  · have hagain := run_again h place
    exact ⟨hagain, fun f hf => ⟨find?_results_of_run h f hf, find?_results_of_run hagain f hf⟩⟩

/-- A balance algorithm that fails. -/
def noBalance : BalanceAlgorithm := fun _ _ _ _ => .error .noFactors

/-- The bundle of the heat pumps is run twice with success, then with an algorithm that fails;
    the hollow bundle cannot be read. -/
theorem inputs_of_run_pumps :
    (∃ t u x, (run t (.ofText "pumps") "pumps" .current none).result = .ok (x, none) ∧
      u = (run t (.ofText "pumps") "pumps" .current none).files ∧
      (∀ name ∈ inputFiles, u.find? (Path.child (.ofText "pumps") name) =
        t.find? (Path.child (.ofText "pumps") name)) ∧
      (∀ f ∈ [(completedFile, Content.raw x.factors.text),
          (preparedFile, Content.raw x.components.text)],
        (run u (.ofText "pumps") "pumps" .current none).files.find?
          (Path.child (.ofText "pumps") f.1) = some (.file f.2)) ∧
      (run t (.ofText "pumps") "pumps" .current (some noBalance)).files = t) ∧
    (run hollowBundle (.ofText "hollow") "hollow" .current none).files = hollowBundle := by
  constructor
  · obtain ⟨t, x, hload, hrun⟩ := run_pumpBundle
    obtain ⟨hinputs, -, -, hrepeats⟩ := inputs_of_run t (.ofText "pumps") "pumps" .current none
    obtain ⟨l, hl, hx⟩ := prepare_of_outcome (outcome_of_run hrun).1
    have hfails : FailsBefore t (.ofText "pumps") .current (some noBalance) .noFactors :=
      .balancing ⟨noBalance, rfl, l, x, hl, hx, rfl⟩
    refine ⟨t, _, x, hrun, rfl, hinputs, fun f hf => ?_, ?_⟩
    · exact ((hrepeats x none hrun).2 f (List.mem_append_left _ hf)).2
    · exact ((inputs_of_run t _ "pumps" .current (some noBalance)).2.1 _ hfails).2
  · exact ((inputs_of_run hollowBundle _ "hollow" .current none).2.1 _
      (.reading load_hollowBundle)).2

end Bundle

end PrimaryEnergy
