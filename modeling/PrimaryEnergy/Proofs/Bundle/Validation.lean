/-
  Validation of a bundle, and its runs.

  Validation looks for the files that are needed, reads the settings and asks for factors or a
  location.  A run reads all files and only then looks where its factors come from; what it
  writes are other files.

  * `validate_eq_ok_iff`: what validation asks for;
  * `validate_of_prepare` and `find?_of_run`: a run that succeeds has found all of it, and leaves
    it as it was;
  * `fault_of_run`: the stages in which a run can fail;
  * `validate_agrees`: validation and runs agree.
-/
import PrimaryEnergy.Proofs.Bundle.PreparedFile

namespace PrimaryEnergy

namespace Bundle

open FileTree

variable {t u : Files} {p q : Path} {l : Loaded} {x : Prepared} {r : Regulation}
  {algorithm : Option BalanceAlgorithm} {b : Option Balance} {e : Fault} {place name : String}

/-! ## What validation asks for -/

theorem validate_eq_ok_iff :
    validate t p = .ok () ↔
      t.has (p.child settingsFile) = true ∧ t.has (p.child componentsFile) = true ∧
        ∃ s, readSettings t p = .ok s ∧
          (s.location = none → t.has (p.child factorsFile) = true) := by
  unfold validate
  cases hs : t.has (p.child settingsFile) <;> cases hc : t.has (p.child componentsFile)
  · simp [hs]
  · simp [hs]
  · simp [hs, hc]
  · cases hr : readSettings t p with
    | error e => simp [hs, hc]
    | ok s => cases hl : s.location <;> simp [hs, hc, hl]

/-- The files that validation looks for, and that a run reads. -/
def inputFiles : List String := [settingsFile, componentsFile, factorsFile]

theorem ne_upward_of_mem_inputFiles (h : name ∈ inputFiles) : name ≠ Path.upward :=
  ne_upward_of_mem_fileNames (List.mem_append_left [completedFile, preparedFile, balanceFile,
    recordFile] h)

/-- Validation only depends on these files. -/
theorem validate_congr {q' : Path} (ht : t.IsFolder p q) (hu : u.IsFolder p q')
    (h : ∀ name ∈ inputFiles, u.find? (p.child name) = t.find? (p.child name)) :
    validate u p = validate t p := by
  have hhas : ∀ name ∈ inputFiles, u.has (p.child name) = t.has (p.child name) :=
    fun name hn => by rw [FileTree.has, h name hn, FileTree.has]
  have hsettings : readSettings u p = readSettings t p := by
    have hn : settingsFile ≠ Path.upward := ne_upward_of_mem_inputFiles (by simp [inputFiles])
    rw [readSettings, readSettings, hu.read_child_eq hn, ht.read_child_eq hn,
      h settingsFile (by simp [inputFiles])]
  have hfind : [settingsFile, componentsFile].find? (fun name => !u.has (p.child name)) =
      [settingsFile, componentsFile].find? fun name => !t.has (p.child name) := by
    simp only [List.find?_cons, List.find?_nil, hhas settingsFile (by simp [inputFiles]),
      hhas componentsFile (by simp [inputFiles])]
  rw [validate, validate, hfind, hsettings, hhas factorsFile (by simp [inputFiles])]

/-! ## Runs that succeed -/

theorem has_of_readSettings {s : RunSettings} (h : readSettings t p = .ok s) :
    t.has (p.child settingsFile) = true := by
  obtain ⟨c, hr⟩ := exists_read_of_readSettings h
  exact has_of_read hr

theorem has_of_readComponents {c : ComponentTable Float} (h : readComponents t p = .ok c) :
    t.has (p.child componentsFile) = true := by
  unfold readComponents at h
  cases hr : t.read (p.child componentsFile) with
  | error e => rw [hr] at h; cases h
  | ok c => exact has_of_read hr

/-- There are factors if there is a file with factors. -/
theorem isSome_of_readFactors {w : Option (FactorTable Float)} (h : readFactors t p = .ok w) :
    w.isSome = t.has (p.child factorsFile) := by
  cases w with
  | none => exact (readFactors_eq_none_iff.1 h).symm
  | some w =>
    cases hh : t.has (p.child factorsFile) with
    | true => rfl
    | false =>
      rw [readFactors_eq_none_iff.2 hh] at h
      cases h

/-- The factors of a run come from a location or from a table. -/
theorem isSome_of_rawFactors {s : RunSettings} {w : Option (FactorTable Float)}
    {raw : FactorTable Float} (h : s.rawFactors w r = .ok raw) (hl : s.location = none) :
    w.isSome = true := by
  cases w with
  | none => simp [RunSettings.rawFactors, hl] at h
  | some w => rfl

/-- What can be prepared from a bundle comes from a valid one. -/
theorem validate_of_prepare (h : load t p = .ok l)
    (hx : l.settings.prepare l.components l.factors r = .ok x) : validate t p = .ok () := by
  obtain ⟨hs, hc, hf⟩ := of_load h
  obtain ⟨raw, -, hraw, -⟩ := RunSettings.prepare_eq_ok_iff.1 hx
  exact validate_eq_ok_iff.2 ⟨has_of_readSettings hs, has_of_readComponents hc, _, hs,
    fun hl => (isSome_of_readFactors hf).symm.trans (isSome_of_rawFactors hraw hl)⟩

theorem not_mem_outputFiles_of_mem_inputFiles (h : name ∈ inputFiles) : name ∉ outputFiles := by
  have hall : ∀ name ∈ inputFiles, name ∉ outputFiles := by decide +kernel
  exact hall name h

theorem not_mem_results_of_mem_inputFiles (h : name ∈ inputFiles) :
    name ∉ (results x r b).map (·.1) :=
  fun hm => not_mem_outputFiles_of_mem_inputFiles h (names_results_subset x r b hm)

/-- A run that succeeds leaves the files that it has read. -/
theorem find?_of_run {y : Prepared × Option Balance}
    (h : (run t p place r algorithm).result = .ok y) :
    (∃ q, t.IsFolder p q ∧ (run t p place r algorithm).files.IsFolder p q) ∧
    ∀ name ∈ inputFiles,
      (run t p place r algorithm).files.find? (p.child name) = t.find? (p.child name) := by
  obtain ⟨x, b⟩ := y
  obtain ⟨ho, hw⟩ := outcome_of_run h
  obtain ⟨q, hq⟩ := isFolder_of_outcome ho
  rw [writeResults_of_isFolder hq] at hw
  obtain ⟨hu, -⟩ :=
    hq.wrote_of_writeAll_children (ne_upward_of_sublist (names_results_sublist x r b)) hw
  exact ⟨⟨q, hq, hu⟩, fun name hn => find?_run t p place r algorithm
    (ne_upward_of_mem_inputFiles hn) (not_mem_outputFiles_of_mem_inputFiles hn)⟩

/-! ## Runs that fail -/

/-- The balance algorithm fails on what has been prepared. -/
def AlgorithmFails (t : Files) (p : Path) (r : Regulation) (algorithm : Option BalanceAlgorithm)
    (e : Fault) : Prop :=
  ∃ compute ∈ algorithm, ∃ l x, load t p = .ok l ∧
    l.settings.prepare l.components l.factors r = .ok x ∧
    compute x.components x.factors l.settings.exportCredit l.settings.area = .error e

theorem exists_of_computeBalance {s : RunSettings}
    (h : (computeBalance algorithm s x).2 = .error e) :
    ∃ compute ∈ algorithm, compute x.components x.factors s.exportCredit s.area = .error e := by
  unfold computeBalance at h
  cases algorithm with
  | none => cases h
  | some compute =>
    refine ⟨compute, rfl, ?_⟩
    cases hb : compute x.components x.factors s.exportCredit s.area with
    | ok b => simp [hb] at h
    | error e' => simpa [hb] using h

theorem of_outcome_error (h : outcome t p r algorithm = .error e) :
    load t p = .error e ∨
    (∃ l, load t p = .ok l ∧ l.settings.prepare l.components l.factors r = .error e) ∨
    AlgorithmFails t p r algorithm e := by
  unfold outcome at h
  cases hl : load t p with
  | error e' =>
    rw [hl] at h
    cases h
    exact .inl rfl
  | ok l =>
    simp only [hl, Loaded.outcome] at h
    cases hx : l.settings.prepare l.components l.factors r with
    | error e' =>
      rw [hx] at h
      cases h
      exact .inr (.inl ⟨l, rfl, hx⟩)
    | ok x =>
      simp only [hx] at h
      cases hb : (computeBalance algorithm l.settings x).2 with
      | ok b => simp [hb, Except.map] at h
      | error e' =>
        rw [hb] at h
        cases h
        obtain ⟨compute, hc, hfails⟩ := exists_of_computeBalance hb
        exact .inr (.inr ⟨compute, hc, l, x, hl, hx, hfails⟩)

/-- **The stages in which a run can fail**: reading, preparing, balancing, writing. -/
theorem fault_of_run (h : (run t p place r algorithm).result = .error e) :
    load t p = .error e ∨
    (∃ l, load t p = .ok l ∧ l.settings.prepare l.components l.factors r = .error e) ∨
    AlgorithmFails t p r algorithm e ∨
    ∃ x b e', (writeResults t p x r b).2 = some e' ∧ e = .file e' := by
  rcases of_run_error h with ho | ⟨x, b, e', -, hw, rfl⟩
  · rcases of_outcome_error ho with hl | hx | ha
    · exact .inl hl
    · exact .inr (.inl hx)
    · exact .inr (.inr (.inl ha))
  · exact .inr (.inr (.inr ⟨x, b, e', hw, rfl⟩))

/-- Failures that tell that a bundle is not there, that something of it is not there, that its
    settings cannot be read or are not valid, or that there are no factors. -/
inductive TellsInvalid (p : Path) : Fault → Prop
  | noBundle (q : Path) : TellsInvalid p (.noBundle q)
  | missingFile (name : String) : TellsInvalid p (.missingFile name)
  | noSuchFile (q : Path) : TellsInvalid p (.file (.noSuchFile q))
  | notDirectory (q : Path) : TellsInvalid p (.file (.notDirectory q))
  | settings : TellsInvalid p (.file (.isDirectory (p.child settingsFile)))
  | yaml (e : YamlFault) : TellsInvalid p (.yaml e)
  | document (e : DocumentFault) : TellsInvalid p (.document e)
  | noFactorFile : TellsInvalid p .noFactorFile
  | noFactors : TellsInvalid p .noFactors

theorem exists_of_mapError {ε α : Type} {x : Except ε α} {f : ε → Fault}
    (h : x.mapError f = .error e) : ∃ e', e = f e' := by
  cases x with
  | ok a => cases h
  | error e' => cases h; exact ⟨e', rfl⟩

/-- A directory in the place of another file is no such failure. -/
theorem not_tellsInvalid_isDirectory (h : name ≠ settingsFile) :
    ¬ TellsInvalid p (.file (.isDirectory (p.child name))) := by
  intro hi
  generalize hq : p.child name = q at hi
  cases hi
  exact h (Path.child_inj.1 hq)

section
variable (h : validate t p = .ok ())
include h

theorem isFolder_of_validate : ∃ q, t.IsFolder p q := by
  obtain ⟨-, -, s, hs, -⟩ := validate_eq_ok_iff.1 h
  exact isFolder_of_readSettings hs

theorem not_tellsInvalid_of_readComponents (he : readComponents t p = .error e) :
    ¬ TellsInvalid p e := by
  obtain ⟨q, hq⟩ := isFolder_of_validate h
  unfold readComponents at he
  cases hr : t.read (p.child componentsFile) with
  | error e' =>
    rw [hr] at he
    cases he
    rw [hq.isDirectory_of_read (by decide) (validate_eq_ok_iff.1 h).2.1 hr]
    exact not_tellsInvalid_isDirectory (by simp [componentsFile, settingsFile])
  | ok c =>
    rw [hr] at he
    obtain ⟨e', rfl⟩ := exists_of_mapError he
    rintro ⟨⟩

theorem not_tellsInvalid_of_readFactors (he : readFactors t p = .error e) :
    ¬ TellsInvalid p e := by
  obtain ⟨q, hq⟩ := isFolder_of_validate h
  unfold readFactors at he
  split at he
  · next hh =>
    cases hr : t.read (p.child factorsFile) with
    | error e' =>
      rw [hr] at he
      cases he
      rw [hq.isDirectory_of_read (by decide) hh hr]
      exact not_tellsInvalid_isDirectory (by simp [factorsFile, settingsFile])
    | ok c =>
      rw [hr] at he
      obtain ⟨e', rfl⟩ := exists_of_mapError he
      rintro ⟨⟩
  · cases he

theorem not_tellsInvalid_of_load (he : load t p = .error e) : ¬ TellsInvalid p e := by
  obtain ⟨q, hq⟩ := isFolder_of_validate h
  obtain ⟨-, -, s, hs, -⟩ := validate_eq_ok_iff.1 h
  rw [load, if_pos hq.has, hs] at he
  cases hc : readComponents t p with
  | error e' =>
    rw [hc] at he
    cases he
    exact not_tellsInvalid_of_readComponents h hc
  | ok c =>
    cases hf : readFactors t p with
    | error e' =>
      rw [hc, hf] at he
      cases he
      exact not_tellsInvalid_of_readFactors h hf
    | ok w => rw [hc, hf] at he; cases he

theorem not_tellsInvalid_of_prepare (hl : load t p = .ok l)
    (he : l.settings.prepare l.components l.factors r = .error e) : ¬ TellsInvalid p e := by
  obtain ⟨-, -, s, hs, hlocation⟩ := validate_eq_ok_iff.1 h
  obtain ⟨hs', -, hf⟩ := of_load hl
  obtain rfl : l.settings = s := Except.ok.inj (hs'.symm.trans hs)
  unfold RunSettings.prepare at he
  cases hraw : l.settings.rawFactors l.factors r with
  | ok raw =>
    simp only [hraw] at he
    cases hfull : raw.complete l.settings.overrides r.defaults l.settings.strip with
    | ok full => simp [hfull] at he
    | error e' =>
      rw [hfull] at he
      cases he
      rintro ⟨⟩
  | error e' =>
    rw [hraw] at he
    cases he
    cases hname : l.settings.location with
    | some name =>
      simp only [RunSettings.rawFactors, hname] at hraw
      obtain ⟨e', rfl⟩ := exists_of_mapError hraw
      rintro ⟨⟩
    | none =>
      -- without a location there is a file with factors, which has been read
      obtain ⟨w, hw⟩ := Option.isSome_iff_exists.1
        ((isSome_of_readFactors hf).trans (hlocation hname))
      simp [RunSettings.rawFactors, hname, hw] at hraw

theorem not_tellsInvalid_of_writeResults {e' : FileFault}
    (he : (writeResults t p x r b).2 = some e') : ¬ TellsInvalid p (.file e') := by
  obtain ⟨q, hq⟩ := isFolder_of_validate h
  rw [writeResults_of_isFolder hq] at he
  obtain ⟨f, hf, rfl⟩ :=
    hq.isDirectory_of_writeAll (ne_upward_of_sublist (names_results_sublist x r b)) he
  refine not_tellsInvalid_isDirectory fun hname => ?_
  exact not_mem_results_of_mem_inputFiles (by simp [inputFiles])
    (hname ▸ List.mem_map_of_mem hf : settingsFile ∈ (results x r b).map (·.1))

end

/-- **Validation and runs agree.**  A bundle that is run with success is valid, before and after.
    A run of a valid bundle, if it fails, does not fail because the bundle or something of it is
    not there, because of the settings, or because there are no factors; unless it is the balance
    algorithm that fails so. -/
theorem validate_agrees (t : Files) (p : Path) (place : String) (r : Regulation)
    (algorithm : Option BalanceAlgorithm) :
    (∀ y, (run t p place r algorithm).result = .ok y →
      validate t p = .ok () ∧ validate (run t p place r algorithm).files p = .ok ()) ∧
    (validate t p = .ok () → ∀ e, (run t p place r algorithm).result = .error e →
      AlgorithmFails t p r algorithm e ∨ ¬ TellsInvalid p e) := by
  constructor
  · rintro ⟨x, b⟩ h
    obtain ⟨l, hl, hx⟩ := prepare_of_outcome (outcome_of_run h).1
    obtain ⟨⟨q, ht, hu⟩, hfiles⟩ := find?_of_run h
    have hv := validate_of_prepare hl hx
    exact ⟨hv, (validate_congr ht hu hfiles).trans hv⟩
  · intro hv e he
    rcases fault_of_run he with hl | ⟨l, hl, hx⟩ | ha | ⟨x, b, e', hw, rfl⟩
    · exact .inr (not_tellsInvalid_of_load hv hl)
    · exact .inr (not_tellsInvalid_of_prepare hv hl hx)
    · exact .inl ha
    · exact .inr (not_tellsInvalid_of_writeResults hv hw)

/-- A bundle with a directory in the place of its components. -/
def hollowBundle : Files :=
  ⟨[(.ofText "hollow", .directory),
    (Path.child (.ofText "hollow") settingsFile,
      .file (.settings { runId := "hollow", location := some "PENINSULA" })),
    (Path.child (.ofText "hollow") componentsFile, .directory)]⟩

theorem validate_hollowBundle : validate hollowBundle (.ofText "hollow") = .ok () := by
  decide +kernel

theorem load_hollowBundle : load hollowBundle (.ofText "hollow") =
    .error (.file (.isDirectory (Path.child (.ofText "hollow") componentsFile))) := by
  decide +kernel

/-- The bundle of the heat pumps is valid before and after its run.  The hollow bundle is valid,
    too; its run fails because of the components, which are there. -/
theorem validate_agrees_pumps :
    (∃ t x, (run t (.ofText "pumps") "pumps" .current none).result = .ok (x, none) ∧
      validate t (.ofText "pumps") = .ok () ∧
      validate (run t (.ofText "pumps") "pumps" .current none).files (.ofText "pumps") =
        .ok ()) ∧
    validate hollowBundle (.ofText "hollow") = .ok () ∧
    ∃ e, (run hollowBundle (.ofText "hollow") "hollow" .current none).result = .error e ∧
      ¬ TellsInvalid (.ofText "hollow") e := by
  constructor
  · obtain ⟨t, x, -, hrun⟩ := run_pumpBundle
    obtain ⟨hbefore, hafter⟩ := (validate_agrees t _ "pumps" .current none).1 _ hrun
    exact ⟨t, x, hrun, hbefore, hafter⟩
  · have hrun : (run hollowBundle (.ofText "hollow") "hollow" .current none).result =
        .error (.file (.isDirectory (Path.child (.ofText "hollow") componentsFile))) := by
      rw [run, load_hollowBundle]
    refine ⟨validate_hollowBundle, _, hrun, ?_⟩
    rcases (validate_agrees hollowBundle _ "hollow" .current none).2 validate_hollowBundle _ hrun
      with ⟨compute, hcompute, -⟩ | h
    · cases hcompute
    · exact h

end Bundle

end PrimaryEnergy
