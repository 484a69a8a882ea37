/-
  What is written into a bundle.

  A new bundle and the results of a run have files of distinct names, all in the directory of
  the bundle; each file that is written without failure holds what it was given.

  * `fileNames` are the names of all files of a bundle;
  * `wrote_of_init` and `find?_of_writeResults`: the files after a success.
-/
import PrimaryEnergy.Bundle.Basic
import PrimaryEnergy.Proofs.Files.Folder

namespace PrimaryEnergy

namespace Bundle

open FileTree

variable {t t' : Files} {p q : Path} {l : Loaded} {x : Prepared} {r : Regulation}
  {b : Option Balance} {name : String} {c : Content}

/-! ## Names -/

/-- The names of all files of a bundle. -/
def fileNames : List String :=
  [settingsFile, componentsFile, factorsFile, completedFile, preparedFile, balanceFile, recordFile]

theorem nodup_fileNames : fileNames.Nodup := by decide +kernel

theorem upward_not_mem_fileNames : Path.upward ∉ fileNames := by decide +kernel

theorem names_contents_sublist (l : Loaded) : ((contents l).map (·.1)).Sublist fileNames := by
  cases h : l.factors <;> simp [contents, fileNames, h]

theorem names_results_sublist (x : Prepared) (r : Regulation) (b : Option Balance) :
    ((results x r b).map (·.1)).Sublist fileNames := by
  cases b with
  | none =>
    have h : [completedFile, preparedFile, recordFile].Sublist fileNames := by decide +kernel
    exact h
  | some b =>
    have h : [completedFile, preparedFile, balanceFile, recordFile].Sublist fileNames := by
      decide +kernel
    exact h

theorem factorsFile_mem_contents_iff (l : Loaded) :
    factorsFile ∈ (contents l).map (·.1) ↔ l.factors.isSome := by
  cases h : l.factors <;> simp [contents, h, settingsFile, componentsFile, factorsFile]

theorem balanceFile_mem_results_iff (x : Prepared) (r : Regulation) (b : Option Balance) :
    balanceFile ∈ (results x r b).map (·.1) ↔ b.isSome := by
  cases b <;> simp [results, completedFile, preparedFile, balanceFile, recordFile]

theorem balanceFile_not_mem_contents (l : Loaded) : balanceFile ∉ (contents l).map (·.1) := by
  simp [contents, settingsFile, componentsFile, factorsFile, balanceFile]

theorem factorsFile_not_mem_results (x : Prepared) (r : Regulation) (b : Option Balance) :
    factorsFile ∉ (results x r b).map (·.1) := by
  simp [results, completedFile, preparedFile, balanceFile, recordFile, factorsFile]

theorem inside_eq_children (p : Path) (files : List (String × Content)) :
    inside p files = children p files := rfl

section
variable {files : List (String × Content)} (hs : (files.map (·.1)).Sublist fileNames)
include hs

theorem ne_upward_of_sublist : ∀ f ∈ files, f.1 ≠ Path.upward := by
  rintro f hf hu
  exact upward_not_mem_fileNames (hu ▸ hs.subset (List.mem_map_of_mem hf))

/-- After files of a bundle are written, each of them holds what it was given. -/
theorem find?_of_wrote (h : t'.IsFolder p q) (hw : Wrote p files t t') :
    ∀ f ∈ files, t'.find? (p.child f.1) = some (.file f.2) := by
  intro f hm
  rw [← h.held_eq, hw f.1 (ne_upward_of_sublist hs f hm),
    lastWrite_of_mem (nodup_fileNames.sublist hs) hm, Option.some_or]

end

/-! ## A new bundle -/

theorem init_of_makeDirectories {u : Files} (h : t.makeDirectories p = .ok u) (l : Loaded) :
    init t p l = u.writeAll (children p (contents l)) := by
  simp only [init, h, inside_eq_children]

/-- After a success, the directory of a new bundle holds its files. -/
theorem wrote_of_init (h : init t p l = (t', none)) :
    (∃ q, t'.IsFolder p q) ∧ Wrote p (contents l) t t' := by
  cases hm : t.makeDirectories p with
  | error e => simp [init, hm] at h
  | ok u =>
    rw [init_of_makeDirectories hm] at h
    obtain ⟨q, hq⟩ := isFolder_of_makeDirectories hm
    obtain ⟨hf, hw⟩ :=
      hq.wrote_of_writeAll_children (ne_upward_of_sublist (names_contents_sublist l)) h
    exact ⟨⟨q, hf⟩, fun name hn => by rw [hw name hn, held_of_makeDirectories hm]⟩

/-! ## Results -/

theorem writeResults_of_isFolder (h : t.IsFolder p q) :
    writeResults t p x r b = t.writeAll (children p (results x r b)) := by
  simp only [writeResults, h.makeDirectory_eq_self, inside_eq_children]

/-- After a success, each file of the results holds what it was given. -/
theorem find?_of_writeResults (h : writeResults t p x r b = (t', none)) :
    ∃ q, t'.IsFolder p q ∧ ∀ f ∈ results x r b, t'.find? (p.child f.1) = some (.file f.2) := by
  unfold writeResults at h
  cases hm : t.makeDirectory p with
  | error e => rw [hm] at h; cases h
  | ok u =>
    rw [hm] at h
    have hs := names_results_sublist x r b
    obtain ⟨q, hq⟩ := isFolder_of_makeDirectory hm
    obtain ⟨hf, hw⟩ := hq.wrote_of_writeAll_children (ne_upward_of_sublist hs) h
    exact ⟨q, hf, find?_of_wrote hs hf hw⟩

theorem read_of_writeResults (h : writeResults t p x r b = (t', none)) {f : String × Content}
    (hf : f ∈ results x r b) : t'.read (p.child f.1) = .ok f.2 := by
  obtain ⟨q, hq, hfiles⟩ := find?_of_writeResults h
  exact hq.read_child (ne_upward_of_sublist (names_results_sublist x r b) f hf) (hfiles f hf)

end Bundle

end PrimaryEnergy
