/-
  Runs of a bundle.

  A run reads its bundle and computes all there is to compute; only then it writes.

  * `run_of_error` and `run_of_ok`: what a run leads to, by what it computes;
  * `isFolder_of_load`: only a directory can be read;
  * `outcome_none`: without a balance, what is computed is what the settings prepare;
  * `find?_run`: a run, also one that fails, leaves all files but its own.
-/
import PrimaryEnergy.Bundle.Run
import PrimaryEnergy.Proofs.Bundle.Writing

namespace PrimaryEnergy

namespace Bundle

open FileTree

variable {t t' : Files} {p q : Path} {l : Loaded} {x : Prepared} {r : Regulation}
  {algorithm : Option BalanceAlgorithm} {b : Option Balance} {e : Fault}

/-! ## What is computed -/

/-- What a run computes from what a bundle holds. -/
def Loaded.outcome (l : Loaded) (r : Regulation) (algorithm : Option BalanceAlgorithm) :
    Except Fault (Prepared × Option Balance) :=
  match l.settings.prepare l.components l.factors r with
  | .error e => .error e
  | .ok x => (computeBalance algorithm l.settings x).2.map fun b => (x, b)

/-- What a run of a bundle computes. -/
def outcome (t : Files) (p : Path) (r : Regulation) (algorithm : Option BalanceAlgorithm) :
    Except Fault (Prepared × Option Balance) :=
  match load t p with
  | .error e => .error e
  | .ok l => l.outcome r algorithm

theorem Loaded.outcome_none (l : Loaded) (r : Regulation) :
    l.outcome r none = (l.settings.prepare l.components l.factors r).map fun x => (x, none) := by
  unfold outcome
  cases l.settings.prepare l.components l.factors r <;> rfl

theorem isSome_of_outcome (h : outcome t p r algorithm = .ok (x, b)) :
    b.isSome = algorithm.isSome := by
  unfold outcome Loaded.outcome at h
  split at h
  · cases h
  · split at h
    · cases h
    · unfold computeBalance at h
      split at h
      · cases h; rfl
      · split at h <;> cases h
        rfl

/-! ## What it leads to -/

/-- A run that fails before it writes changes nothing. -/
theorem run_of_error (h : outcome t p r algorithm = .error e) (place : String) :
    (run t p place r algorithm).files = t ∧ (run t p place r algorithm).result = .error e := by
  unfold outcome Loaded.outcome at h
  unfold run
  cases hl : load t p with
  | error e => rw [hl] at h; cases h; exact ⟨rfl, rfl⟩
  | ok l =>
    simp only [hl] at h ⊢
    cases hx : l.settings.prepare l.components l.factors r with
    | error e => rw [hx] at h; cases h; exact ⟨rfl, rfl⟩
    | ok x =>
      simp only [hx] at h ⊢
      rcases hb : computeBalance algorithm l.settings x with ⟨more, e | b⟩
      · rw [hb] at h; cases h; exact ⟨rfl, rfl⟩
      · rw [hb] at h; cases h

/-- A run that has computed everything writes the results. -/
theorem run_of_ok (h : outcome t p r algorithm = .ok (x, b)) (place : String) :
    (run t p place r algorithm).files = (writeResults t p x r b).1 ∧
      (run t p place r algorithm).result =
        match (writeResults t p x r b).2 with
        | none => .ok (x, b)
        | some e => .error (.file e) := by
  unfold outcome Loaded.outcome at h
  unfold run
  cases hl : load t p with
  | error e => rw [hl] at h; cases h
  | ok l =>
    simp only [hl] at h ⊢
    cases hx : l.settings.prepare l.components l.factors r with
    | error e => rw [hx] at h; cases h
    | ok x =>
      simp only [hx] at h ⊢
      rcases hb : computeBalance algorithm l.settings x with ⟨more, e | b⟩
      · rw [hb] at h; cases h
      · rw [hb] at h
        cases h
        dsimp only
        rcases writeResults t p x r b with ⟨u, _ | e⟩ <;> exact ⟨rfl, rfl⟩

/-- A run that succeeds has computed its result and written all files. -/
theorem outcome_of_run {place : String} (h : (run t p place r algorithm).result = .ok (x, b)) :
    outcome t p r algorithm = .ok (x, b) ∧
      writeResults t p x r b = ((run t p place r algorithm).files, none) := by
  cases ho : outcome t p r algorithm with
  | error e =>
    rw [(run_of_error ho place).2] at h
    cases h
  | ok y =>
    obtain ⟨hf, hr⟩ := run_of_ok ho place
    rw [hr] at h
    cases hw : (writeResults t p y.1 r y.2).2 with
    | some e => rw [hw] at h; cases h
    | none =>
      rw [hw] at h
      cases h
      exact ⟨rfl, Prod.ext hf.symm hw⟩

/-- A run that fails has failed to compute its result or to write it. -/
theorem of_run_error {place : String} (h : (run t p place r algorithm).result = .error e) :
    outcome t p r algorithm = .error e ∨
    ∃ x b e', outcome t p r algorithm = .ok (x, b) ∧ (writeResults t p x r b).2 = some e' ∧
      e = .file e' := by
  cases ho : outcome t p r algorithm with
  | error e' =>
    rw [(run_of_error ho place).2] at h
    cases h
    exact .inl rfl
  | ok y =>
    rw [(run_of_ok ho place).2] at h
    cases hw : (writeResults t p y.1 r y.2).2 with
    | none => rw [hw] at h; cases h
    | some e' =>
      rw [hw] at h
      cases h
      exact .inr ⟨y.1, y.2, e', rfl, hw, rfl⟩

theorem prepare_of_outcome (h : outcome t p r algorithm = .ok (x, b)) :
    ∃ l, load t p = .ok l ∧ l.settings.prepare l.components l.factors r = .ok x := by
  unfold outcome Loaded.outcome at h
  cases hl : load t p with
  | error e => rw [hl] at h; cases h
  | ok l =>
    simp only [hl] at h
    cases hx : l.settings.prepare l.components l.factors r with
    | error e => rw [hx] at h; cases h
    | ok y =>
      simp only [hx] at h
      cases hb : (computeBalance algorithm l.settings y).2 with
      | error e => rw [hb] at h; cases h
      | ok b' => rw [hb] at h; cases h; exact ⟨l, rfl, hx⟩

/-- What is read from a bundle. -/
theorem of_load (h : load t p = .ok l) :
    readSettings t p = .ok l.settings ∧ readComponents t p = .ok l.components ∧
      readFactors t p = .ok l.factors := by
  unfold load at h
  split at h
  · cases hs : readSettings t p with
    | error e => rw [hs] at h; cases h
    | ok s =>
      cases hc : readComponents t p with
      | error e => rw [hs, hc] at h; cases h
      | ok c =>
        cases hf : readFactors t p with
        | error e => rw [hs, hc, hf] at h; cases h
        | ok w => rw [hs, hc, hf] at h; cases h; exact ⟨rfl, rfl, rfl⟩
  · cases h

theorem readFactors_eq_none_iff :
    readFactors t p = .ok none ↔ t.has (p.child factorsFile) = false := by
  unfold readFactors
  split
  · next h =>
    simp only [h, Bool.true_eq_false, iff_false]
    split
    · exact nofun
    · next content _ => cases FactorTable.read content.readText <;> exact nofun
  · next h => simpa using h

theorem exists_read_of_readSettings {s : RunSettings} (h : readSettings t p = .ok s) :
    ∃ c, t.read (p.child settingsFile) = .ok c := by
  unfold readSettings at h
  cases hr : t.read (p.child settingsFile) with
  | error e => rw [hr] at h; cases h
  | ok c => exact ⟨c, rfl⟩

theorem isFolder_of_readSettings {s : RunSettings} (h : readSettings t p = .ok s) :
    ∃ q, t.IsFolder p q := by
  obtain ⟨c, hr⟩ := exists_read_of_readSettings h
  exact isFolder_of_read_child hr

/-- Only a directory can be read as a bundle. -/
theorem isFolder_of_load (h : load t p = .ok l) : ∃ q, t.IsFolder p q :=
  isFolder_of_readSettings (of_load h).1

theorem isFolder_of_outcome (h : outcome t p r algorithm = .ok (x, b)) : ∃ q, t.IsFolder p q := by
  unfold outcome at h
  split at h
  · cases h
  · next hl => exact isFolder_of_load hl

/-- What has been computed is written, unless a directory is in the way. -/
theorem result_of_outcome (h : outcome t p r algorithm = .ok (x, b))
    (ha : ∀ f ∈ results x r b, t.accepts p f.1 = true) (place : String) :
    (run t p place r algorithm).result = .ok (x, b) := by
  obtain ⟨q, hq⟩ := isFolder_of_outcome h
  obtain ⟨-, -, hnone⟩ := hq.writeAll_children (ne_upward_of_sublist (names_results_sublist x r b))
    fun f _ => (rfl : _ = t.accepts p f.1)
  rw [(run_of_ok h place).2, writeResults_of_isFolder hq, hnone.2 ha]

/-! ## What it leaves -/

/-- The files that a run may write. -/
def outputFiles : List String := [completedFile, preparedFile, balanceFile, recordFile]

theorem names_results_subset (x : Prepared) (r : Regulation) (b : Option Balance) :
    (results x r b).map (·.1) ⊆ outputFiles := by
  cases b <;> simp [results, outputFiles]

/-- **A run leaves all files but its own**, also if it fails. -/
theorem find?_run (t : Files) (p : Path) (place : String) (r : Regulation)
    (algorithm : Option BalanceAlgorithm) {name : String} (hn : name ≠ Path.upward)
    (hout : name ∉ outputFiles) :
    (run t p place r algorithm).files.find? (p.child name) = t.find? (p.child name) := by
  cases ho : outcome t p r algorithm with
  | error e => rw [(run_of_error ho place).1]
  | ok y =>
    obtain ⟨q, hq⟩ := isFolder_of_outcome ho
    -- some of the results are written even if one of them cannot be
    obtain ⟨hu, hw, -⟩ :=
      hq.writeAll_children (ne_upward_of_sublist (names_results_sublist y.1 r y.2)) fun f _ =>
        (rfl : _ = t.accepts p f.1)
    have hnone :
        lastWrite ((results y.1 r y.2).takeWhile fun f => t.accepts p f.1) name = none := by
      rw [← Option.not_isSome_iff_eq_none, isSome_lastWrite_iff]
      intro hm
      obtain ⟨f, hf, rfl⟩ := List.mem_map.1 hm
      have hf' := (List.takeWhile_sublist _).subset hf
      exact hout (names_results_subset y.1 r y.2 (List.mem_map_of_mem hf'))
    rw [(run_of_ok ho place).1, writeResults_of_isFolder hq, ← hu.held_eq, hw name hn, hnone,
      Option.none_or, hq.held_eq]

end Bundle

end PrimaryEnergy
