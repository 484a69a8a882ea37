/-
  Histories of a bundle.

  New bundles are written into a directory and runs are made there, in any order, and some of
  these calls may fail.  A call writes its own files and removes none: a table or a balance
  that an earlier call has left stays until a call writes another one.

  * `Call.wrote_perform`: what one call writes, also if it fails;
  * `wrote_after`: what a history of calls writes;
  * `files_of_history`: what the directory holds after a call has succeeded.
-/
import PrimaryEnergy.Proofs.Bundle.Run
import PrimaryEnergy.Regulation.Current

namespace PrimaryEnergy

namespace Bundle

open FileTree

/-- A call on a bundle. -/
inductive Call where
  /-- A new bundle is written. -/
  | init (l : Loaded)
  /-- The bundle is run; `place` is how the lines name it. -/
  | run (place : String) (r : Regulation) (algorithm : Option BalanceAlgorithm)

variable {t u : Files} {p q : Path} {c : Call}

/-! ## One call -/

namespace Call

/-- The files after a call, and why it has failed if it has. -/
def perform (p : Path) (t : Files) : Call → Files × Option Fault
  | .init l => ((Bundle.init t p l).1, (Bundle.init t p l).2.map .file)
  | .run place r algorithm =>
    ((Bundle.run t p place r algorithm).files,
      match (Bundle.run t p place r algorithm).result with
      | .ok _ => none
      | .error e => some e)

/-- The files that a call sets out to write. -/
def output (p : Path) (t : Files) : Call → List (String × Content)
  | .init l =>
    match t.makeDirectories p with
    | .ok _ => contents l
    | .error _ => []
  | .run _ r algorithm =>
    match outcome t p r algorithm with
    | .ok (x, b) => results x r b
    | .error _ => []

/-- The files that a call writes: those up to the first that is not accepted. -/
def written (p : Path) (t : Files) (c : Call) : List (String × Content) :=
  (c.output p t).takeWhile fun f => t.accepts p f.1

/-- Whether a call is given a factor table. -/
def GivesFactors : Call → Prop
  | .init l => l.factors.isSome
  | .run .. => False

/-- Whether a call is told how to compute a balance. -/
def GivesBalance : Call → Prop
  | .init _ => False
  | .run _ _ algorithm => algorithm.isSome

theorem names_output_sublist (p : Path) (t : Files) (c : Call) :
    ((c.output p t).map (·.1)).Sublist fileNames := by
  cases c with
  | init l =>
    simp only [output]
    split
    · exact names_contents_sublist l
    · exact List.nil_sublist _
  | run place r algorithm =>
    simp only [output]
    split
    · exact names_results_sublist _ _ _
    · exact List.nil_sublist _

/-- A call fails before it writes anything, or it writes its files into the directory, which it
    may have made. -/
theorem perform_cases (p : Path) (t : Files) (c : Call) :
    (c.output p t = [] ∧ ∃ e, c.perform p t = (t, some e)) ∨
    ∃ (v : Files) (q : Path), v.IsFolder p q ∧ (∀ name, v.held p name = t.held p name) ∧
      c.perform p t = ((v.writeAll (children p (c.output p t))).1,
        (v.writeAll (children p (c.output p t))).2.map .file) := by
  cases c with
  | init l =>
    cases hm : t.makeDirectories p with
    | error e =>
      exact .inl ⟨by simp only [output, hm], .file e, by simp [perform, Bundle.init, hm]⟩
    | ok v =>
      obtain ⟨q, hq⟩ := isFolder_of_makeDirectories hm
      refine .inr ⟨v, q, hq, fun name => held_of_makeDirectories hm, ?_⟩
      simp only [perform, init_of_makeDirectories hm, output, hm]
  | run place r algorithm =>
    cases ho : outcome t p r algorithm with
    | error e =>
      obtain ⟨hf, hr⟩ := run_of_error ho place
      exact .inl ⟨by simp only [output, ho], e, by simp only [perform, hf, hr]⟩
    | ok y =>
      obtain ⟨q, hq⟩ := isFolder_of_outcome ho
      obtain ⟨hf, hr⟩ := run_of_ok ho place
      rw [writeResults_of_isFolder hq] at hf hr
      refine .inr ⟨t, q, hq, fun _ => rfl, ?_⟩
      simp only [perform, output, ho, hf, hr]
      cases (t.writeAll (children p (results y.1 r y.2))).2 <;> rfl

/-- **What a call writes**, also if it fails: its files up to the first that is not accepted. -/
theorem wrote_perform (p : Path) (t : Files) (c : Call) :
    Wrote p (c.written p t) t (c.perform p t).1 := by
  obtain ⟨ho, e, hc⟩ | ⟨v, q, hq, hheld, hc⟩ := perform_cases p t c
  · rw [written, ho, hc]
    exact .refl t
  · obtain ⟨-, hw, -⟩ := hq.writeAll_children
      (ne_upward_of_sublist (names_output_sublist p t c)) (g := fun f => t.accepts p f.1)
      fun f _ => by simp only [accepts, hheld]
    intro name hn
    rw [hc, ← hheld]
    exact hw name hn

/-- After a call has succeeded, all its files are written. -/
theorem wrote_of_perform (h : c.perform p t = (u, none)) :
    (∃ q, u.IsFolder p q) ∧ Wrote p (c.output p t) t u := by
  obtain ⟨ho, e, hc⟩ | ⟨v, q, hq, hheld, hc⟩ := perform_cases p t c
  · rw [hc] at h
    cases h
  · rw [hc, Prod.mk.injEq, Option.map_eq_none_iff] at h
    obtain ⟨hf, hw⟩ := hq.wrote_of_writeAll_children
      (ne_upward_of_sublist (names_output_sublist p t c)) (Prod.ext h.1 h.2)
    exact ⟨⟨q, hf⟩, fun name hn => by rw [hw name hn, hheld]⟩

theorem factorsFile_mem_output_iff (h : c.perform p t = (u, none)) :
    factorsFile ∈ (c.output p t).map (·.1) ↔ c.GivesFactors := by
  cases c with
  | init l =>
    cases hm : t.makeDirectories p with
    | error e => simp [perform, Bundle.init, hm] at h
    | ok v =>
      simp only [output, hm]
      exact factorsFile_mem_contents_iff l
  | run place r algorithm =>
    simp only [output, GivesFactors, iff_false]
    split
    · exact factorsFile_not_mem_results _ _ _
    · exact List.not_mem_nil

theorem balanceFile_mem_output_iff (h : c.perform p t = (u, none)) :
    balanceFile ∈ (c.output p t).map (·.1) ↔ c.GivesBalance := by
  cases c with
  | init l =>
    simp only [output, GivesBalance, iff_false]
    split
    · exact balanceFile_not_mem_contents l
    · exact List.not_mem_nil
  | run place r algorithm =>
    cases ho : outcome t p r algorithm with
    | error e => simp [perform, (run_of_error ho place).2] at h
    | ok y =>
      simp only [output, ho, GivesBalance, ← isSome_of_outcome ho]
      exact balanceFile_mem_results_iff y.1 r y.2

end Call

/-! ## Histories -/

/-- The files after a history of calls, some of which may fail. -/
def after (p : Path) (t : Files) (calls : List Call) : Files :=
  calls.foldl (fun t c => (c.perform p t).1) t

/-- All that is written in a history. -/
def log (p : Path) : Files → List Call → List (String × Content)
  | _, [] => []
  | t, c :: calls => c.written p t ++ log p (c.perform p t).1 calls

/-- **What a history writes.** -/
theorem wrote_after (p : Path) (t : Files) (calls : List Call) :
    Wrote p (log p t calls) t (after p t calls) := by
  induction calls generalizing t with
  | nil => exact .refl t
  | cons c calls ih => exact (Call.wrote_perform p t c).trans (ih _)

/-- **What a history leaves.**  After a call has succeeded, each file holds what was written
    last: the files of this call what it was given, others what calls before it or nobody has
    written.  So there are factors if this call is given some, or if they were there before,
    and likewise for the balance. -/
theorem files_of_history {calls : List Call} (h : c.perform p (after p t calls) = (u, none)) :
    (∀ f ∈ c.output p (after p t calls), u.find? (p.child f.1) = some (.file f.2)) ∧
    (∀ name ≠ Path.upward, u.find? (p.child name) =
      (lastWrite (log p t calls ++ c.output p (after p t calls)) name).or (t.held p name)) ∧
    (u.has (p.child factorsFile) = true ↔
      c.GivesFactors ∨ factorsFile ∈ (log p t calls).map (·.1) ∨
        (t.held p factorsFile).isSome) ∧
    (readFactors u p = .ok none ↔ u.has (p.child factorsFile) = false) ∧
    (u.has (p.child balanceFile) = true ↔
      c.GivesBalance ∨ balanceFile ∈ (log p t calls).map (·.1) ∨
        (t.held p balanceFile).isSome) := by
  obtain ⟨⟨q, hq⟩, hown⟩ := Call.wrote_of_perform h
  have hbefore := wrote_after p t calls
  have hall := hbefore.trans hown
  have hnames := Call.names_output_sublist p (after p t calls) c
  have hhas (name : String) (hn : name ≠ Path.upward) : u.has (p.child name) = true ↔
      name ∈ (c.output p (after p t calls)).map (·.1) ∨ name ∈ (log p t calls).map (·.1) ∨
        (t.held p name).isSome := by
    rw [FileTree.has, ← hq.held_eq, hown.isSome_held_iff hn, hbefore.isSome_held_iff hn]
  refine ⟨find?_of_wrote hnames hq hown, fun name hn => ?_, ?_, readFactors_eq_none_iff, ?_⟩
  · rw [← hq.held_eq, hall name hn]
  · rw [hhas factorsFile (by decide), Call.factorsFile_mem_output_iff h]
  · rw [hhas balanceFile (by decide), Call.balanceFile_mem_output_iff h]

/-- A new bundle with a factor table. -/
def withFactors : Call :=
  .init { settings := { runId := "first" }, components := {}, factors := some {} }

/-- A new bundle for a location, without factors. -/
def withoutFactors : Call :=
  .init {
    settings := { runId := "second", location := some "PENINSULA" }, components := {},
    factors := none }

/-- A run with a balance of no energy, or without a balance. -/
def runCall (balances : Bool) : Call :=
  .run "second" .current
    (if balances then some fun c w credit area => .ok ⟨c, w, credit, area, {}, {}⟩ else none)

theorem perform_withoutFactors :
    withoutFactors.perform {} (after {} {} [withFactors]) =
      ((withoutFactors.perform {} (after {} {} [withFactors])).1, none) := by
  rfl

theorem perform_runCall :
    (runCall false).perform {} (after {} {} [withoutFactors, runCall true]) =
      (((runCall false).perform {} (after {} {} [withoutFactors, runCall true])).1, none) :=
  Prod.ext rfl (by decide +kernel)

/-- A factor table is left by a bundle that was there before, and a balance by a run before. -/
theorem files_of_history_leftFactors :
    (∃ u, withoutFactors.perform {} (after {} {} [withFactors]) = (u, none) ∧
      ¬ withoutFactors.GivesFactors ∧ u.has ⟨false, [factorsFile]⟩ = true) ∧
    ∃ u, (runCall false).perform {} (after {} {} [withoutFactors, runCall true]) = (u, none) ∧
      ¬ (runCall false).GivesBalance ∧ u.has ⟨false, [balanceFile]⟩ = true := by
  have hfactorsLog : factorsFile ∈ (log {} {} [withFactors]).map (·.1) := by decide +kernel
  have hbalanceLog : balanceFile ∈ (log {} {} [withoutFactors, runCall true]).map (·.1) := by
    decide +kernel
  obtain ⟨-, -, hfactors, -⟩ := files_of_history perform_withoutFactors
  obtain ⟨-, -, -, -, hbalance⟩ := files_of_history perform_runCall
  exact ⟨⟨_, perform_withoutFactors, nofun, hfactors.2 (.inr (.inl hfactorsLog))⟩,
    _, perform_runCall, Bool.false_ne_true, hbalance.2 (.inr (.inl hbalanceLog))⟩

theorem not_factors_iff_given :
    ¬ ∀ (t u : Files) (p : Path) (calls : List Call) (l : Loaded),
      (Call.init l).perform p (after p t calls) = (u, none) →
        (u.has (p.child factorsFile) = true ↔ l.factors.isSome) := by
  intro h
  have hiff := h _ _ _ _ _ perform_withoutFactors
  exact absurd (hiff.1 (by decide +kernel)) (by decide)

end Bundle

end PrimaryEnergy
