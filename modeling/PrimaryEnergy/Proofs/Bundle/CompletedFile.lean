/-
  The file of completed factors, read back.

  Comments reach this file from the table that a run starts with, from completion and from
  conversion, which puts a note in front of them.  The note ends with a blank; a row without a
  comment gets nothing else, and the blank is lost when the row is read.

  * `comment_adapt`: the comments of prepared factors can be written, apart from the note alone;
  * `read_completedFile`: what the file is read as;
  * `completedFile_read_back`: which runs find the factors that they have prepared.
-/
import PrimaryEnergy.Proofs.Bundle.Agreement
import PrimaryEnergy.Proofs.Metadata
import PrimaryEnergy.Proofs.Preparation.Coverage

namespace PrimaryEnergy

open Text TableText Decimal

/-! ## Conversion -/

namespace Factor

theorem isNote_nearbyNote_append {c : String} (h : IsRemark c) (hc : c ≠ "") :
    IsNote (nearbyNote ++ c) := by
  have hne : c.toList ≠ [] := fun h0 => hc (String.toList_eq_nil_iff.1 h0)
  have hhead : ∀ d ∈ nearbyNote.toList.head?, isBlank d = false := by decide +kernel
  have hline : OneLine nearbyNote.toList := by decide +kernel
  have hnote : nearbyNote.toList ≠ [] := by decide +kernel
  refine ⟨⟨?_, ?_⟩, ?_⟩ <;> rw [String.toList_append]
  · exact oneLine_append hline h.oneLine
  · exact isTrimmed_append hnote hhead hne h.isTrimmed.last
  · exact List.append_ne_nil_of_left_ne_nil hnote _

theorem oneLine_nearbyNote : OneLine nearbyNote.toList := by decide +kernel

/-- The note alone ends with a blank. -/
theorem not_isTrimmed_nearbyNote : ¬ IsTrimmed nearbyNote.toList := by decide +kernel

/-- Conversion leaves a comment that can be written, or the note alone. -/
theorem comment_toNearby {f : Factor Float} (h : IsRemark f.comment) :
    IsRemark f.toNearby.comment ∨ f.comment = "" ∧ f.toNearby.comment = nearbyNote := by
  unfold toNearby
  split_ifs
  · exact Or.inl h
  · by_cases hc : f.comment = ""
    · exact Or.inr ⟨hc, by rw [hc, String.append_empty]⟩
    · exact Or.inl (isNote_nearbyNote_append h hc).toIsRemark

end Factor

namespace FactorTable

variable {t u : FactorTable Float}

/-- Metadata and comments can be written, apart from comments that are the note alone. -/
structure IsNoted (t : FactorTable Float) : Prop where
  metadata : ∀ e ∈ t.metadata, e.IsWritable
  comments : ∀ f ∈ t.rows, IsRemark f.comment ∨ f.comment = Factor.nearbyNote

theorem IsWritable.isNoted (h : t.IsWritable) : t.IsNoted :=
  ⟨h.metadata, fun f hf => Or.inl (h.comments f hf)⟩

theorem IsNoted.isPrintable (h : t.IsNoted) : t.IsPrintable := by
  refine ⟨h.metadata, fun f hf => ?_⟩
  rcases h.comments f hf with hc | hc
  · exact hc.oneLine
  · rw [hc]
    exact Factor.oneLine_nearbyNote

theorem IsNoted.isWritable_iff (h : t.IsNoted) :
    t.IsWritable ↔ ∀ f ∈ t.rows, f.comment ≠ Factor.nearbyNote := by
  constructor
  · rintro hw f hf hc
    exact Factor.not_isTrimmed_nearbyNote (hc ▸ (hw.comments f hf).isTrimmed)
  · exact fun hne => ⟨h.metadata, fun f hf => (h.comments f hf).resolve_right (hne f hf)⟩

theorem writable_metadata_toNearby (h : t.IsWritable) :
    ∀ e ∈ t.toNearby.metadata, e.IsWritable :=
  Metadata.forall_set h.metadata (by decide +kernel)

theorem isNoted_toNearby (h : t.IsWritable) : t.toNearby.IsNoted := by
  refine ⟨writable_metadata_toNearby h, fun f hf => ?_⟩
  obtain ⟨g, hg, rfl⟩ := List.mem_map.1 hf
  exact (Factor.comment_toNearby (h.comments g hg)).imp_right And.right

theorem isWritable_toNearby (h : t.IsWritable) (hc : ∀ f ∈ t.rows, f.comment ≠ "") :
    t.toNearby.IsWritable := by
  refine ⟨writable_metadata_toNearby h, fun f hf => ?_⟩
  obtain ⟨g, hg, rfl⟩ := List.mem_map.1 hf
  exact (Factor.comment_toNearby (h.comments g hg)).resolve_right fun hn => hc g hg hn.1

section
variable {β : Type} {rows : List (Component β)}

theorem isNoted_prune (h : t.IsNoted) : (t.prune rows).IsNoted :=
  ⟨h.metadata, fun f hf => h.comments f (List.mem_filter.1 hf).1⟩

theorem isWritable_prune (h : t.IsWritable) : (t.prune rows).IsWritable :=
  ⟨h.metadata, fun f hf => h.comments f (List.mem_filter.1 hf).1⟩

end

theorem isTranscript_reread_iff : t.IsTranscript Factor.IsTranscript t.reread ↔
    ∀ f ∈ t.rows, IsTrimmed f.comment.toList := by
  rw [Table.isTranscript_iff Factor.isTranscript_iff, reread, Table.mk.injEq,
    and_iff_right rfl, List.map_inj_left]
  exact forall₂_congr fun f _ => Factor.reread_eq_rounded_iff

end FactorTable

/-! ## The tables of the regulation in force -/

namespace Regulation

theorem isNote_sharedRows : ∀ f ∈ sharedRows, IsNote f.comment := by
  have hdelivery : IsNote deliveryNote := isNote_ofList (by decide)
  intro f hf
  simp only [sharedRows, List.mem_cons, List.not_mem_nil, or_false] at hf
  rcases hf with rfl | rfl | rfl | rfl | rfl | rfl | rfl | rfl | rfl | rfl | rfl
  · exact isNote_ofList (by decide)
  · exact isNote_ofList (by decide)
  · exact isNote_ofList (by decide)
  all_goals exact hdelivery

/-- The comment on the electricity of a territory. -/
def electricityNote (label : String) : String :=
  "Recursos usados para suministrar electricidad (" ++ label ++ ") desde la red"

theorem territory_table {name label : String} {ren nren : Nat} (hname : IsRemark name)
    (hnote : IsNote (electricityNote label)) :
    (territory name label ren nren).table.IsWritable ∧
      ∀ f ∈ (territory name label ren nren).table.rows, f.comment ≠ "" := by
  have hrows : ∀ f ∈ (territory name label ren nren).table.rows, IsNote f.comment := by
    intro f hf
    rcases List.mem_cons.1 hf with rfl | hf
    · exact hnote
    · exact isNote_sharedRows f hf
  have hkey : MetaEntry.IsWritable ⟨Metadata.locationKey, ""⟩ := by decide +kernel
  refine ⟨⟨?_, fun f hf => (hrows f hf).toIsRemark⟩, fun f hf h0 => ?_⟩
  · intro e he
    simp only [territory, List.mem_cons, List.not_mem_nil, or_false] at he
    rcases he with rfl | rfl | rfl
    · decide +kernel
    · decide +kernel
    · exact ⟨hkey.key_ne_nil, hkey.key_colon, hkey.key_isRemark, hname⟩
  · exact (hrows f hf).ne_nil (String.toList_eq_nil_iff.2 h0)

/-- The tables of the regulation can be written, and all their rows have comments. -/
theorem table_current {name : String} {raw : FactorTable Float}
    (h : Regulation.current.table name = .ok raw) :
    raw.IsWritable ∧ ∀ f ∈ raw.rows, f.comment ≠ "" := by
  have hmark : ∀ l ∈ Regulation.current.locations,
      (l.table.getMeta? Metadata.locationKey).isNone = false := by decide +kernel
  unfold Regulation.table at h
  split at h
  · cases h
  · rename_i l hl
    have hl := List.mem_of_find?_eq_some hl
    rw [hmark l hl] at h
    cases h
    simp only [current, List.mem_cons, List.not_mem_nil, or_false] at hl
    rcases hl with rfl | rfl | rfl | rfl
    all_goals
      exact territory_table (by decide +kernel) ⟨by decide +kernel, by decide +kernel⟩

end Regulation

/-! ## Prepared factors -/

namespace RunSettings

variable {s : RunSettings} {c : ComponentTable Float} {t : Option (FactorTable Float)}

/-- The factors that a run starts with can be written; those of a location have comments. -/
theorem rawFactors_current {raw : FactorTable Float} (ht : ∀ w ∈ t, w.IsWritable)
    (h : s.rawFactors t .current = .ok raw) :
    raw.IsWritable ∧ (s.location.isSome → ∀ f ∈ raw.rows, f.comment ≠ "") := by
  unfold rawFactors at h
  cases hname : s.location with
  | some name =>
    simp only [hname] at h
    cases htable : Regulation.current.table name with
    | error e => rw [htable] at h; cases h
    | ok raw' =>
      rw [htable] at h
      cases h
      obtain ⟨hw, hc⟩ := Regulation.table_current htable
      exact ⟨hw, fun _ => hc⟩
  | none =>
    rw [hname] at h
    cases ht' : t with
    | none => rw [ht'] at h; cases h
    | some w =>
      rw [ht'] at h
      cases h
      exact ⟨ht raw ht', nofun⟩

theorem isNoted_adapt {full : FactorTable Float} (h : full.IsWritable) :
    (s.adapt c full).IsNoted := by
  unfold adapt
  cases s.nearby <;> cases s.prune
  · exact h.isNoted
  · exact FactorTable.isNoted_prune h.isNoted
  · exact FactorTable.isNoted_toNearby h
  · exact FactorTable.isNoted_prune (FactorTable.isNoted_toNearby h)

theorem isWritable_adapt {full : FactorTable Float} (h : full.IsWritable)
    (hc : s.nearby = false ∨ ∀ f ∈ full.rows, f.comment ≠ "") : (s.adapt c full).IsWritable := by
  have hconverted : (if s.nearby then full.toNearby else full).IsWritable := by
    split_ifs with hn
    · exact FactorTable.isWritable_toNearby h (hc.resolve_left (by simp [hn]))
    · exact h
  unfold adapt
  cases s.prune
  · exact hconverted
  · exact FactorTable.isWritable_prune hconverted

/-- Prepared factors under the regulation in force. -/
theorem factors_of_prepare {p : Prepared} (ht : ∀ w ∈ t, w.IsWritable)
    (h : s.prepare c t .current = .ok p) :
    p.factors.IsNoted ∧ (s.nearby = false ∨ s.location.isSome → p.factors.IsWritable) := by
  obtain ⟨raw, full, hraw, hfull, rfl⟩ := prepare_eq_ok_iff.1 h
  obtain ⟨hw, hcomments⟩ := rawFactors_current ht hraw
  have hfull' : full.IsWritable := FactorTable.isWritable_of_complete hw hfull
  refine ⟨isNoted_adapt hfull', fun hs => isWritable_adapt hfull' (hs.imp_right fun hl => ?_)⟩
  intro f hf
  rcases FactorTable.mem_or_isNote_of_complete hfull f hf with hf | hf
  · exact hcomments hl f hf
  · exact fun h0 => hf.ne_nil (String.toList_eq_nil_iff.2 h0)

end RunSettings

/-! ## The file -/

namespace Bundle

open FileTree

variable {t : Files} {p : Path} {l : Loaded} {x : Prepared} {r : Regulation}
  {algorithm : Option BalanceAlgorithm} {b : Option Balance}

theorem isWritable_of_load (h : load t p = .ok l) : ∀ w ∈ l.factors, w.IsWritable := by
  intro w hw
  have hread := (of_load h).2.2
  rw [Option.mem_def.1 hw] at hread
  unfold readFactors at hread
  split at hread
  · split at hread
    · cases hread
    · rename_i content _
      cases ht : FactorTable.read content.readText with
      | error e => rw [ht] at hread; cases hread
      | ok w' =>
        rw [ht] at hread
        cases hread
        exact FactorTable.isWritable_of_read ht
  · cases hread

/-- **The file of completed factors is read as what it shows.** -/
theorem read_completedFile {place : String}
    (h : (run t p place .current algorithm).result = .ok (x, b)) :
    ∃ c, (run t p place .current algorithm).files.read (p.child completedFile) = .ok c ∧
      FactorTable.read c.readText = .ok x.factors.reread ∧ x.factors.IsNoted ∧
      ∃ l, load t p = .ok l ∧
        (l.settings.nearby = false ∨ l.settings.location.isSome → x.factors.IsWritable) := by
  obtain ⟨ho, hw⟩ := outcome_of_run h
  obtain ⟨l, hl, hx⟩ := prepare_of_outcome ho
  obtain ⟨hnoted, hwritable⟩ := RunSettings.factors_of_prepare (isWritable_of_load hl) hx
  have hfile : (completedFile, Content.raw x.factors.text) ∈ results x .current b := by
    simp [results]
  refine ⟨_, read_of_writeResults hw hfile, ?_, hnoted, l, hl, hwritable⟩
  rw [FactorTable.readText_text hnoted.isPrintable]
  exact FactorTable.read_text_of_printable hnoted.isPrintable

/-- **What is read back of completed factors.**  The file has the same metadata and rows, with
    the numbers that their texts denote and without blanks at the ends of comments.  So it is
    the table of the run unless a comment is nothing but the note on conversion; under the
    regulation in force this takes a table of its own and the nearby perimeter. -/
theorem completedFile_read_back {place : String}
    (h : (run t p place .current algorithm).result = .ok (x, b)) :
    ∃ l c u, load t p = .ok l ∧
      (run t p place .current algorithm).files.read (p.child completedFile) = .ok c ∧
      FactorTable.read c.readText = .ok u ∧ u.metadata = x.factors.metadata ∧
      List.Forall₂ (fun f g => g.key = f.key ∧ Denotes 3 f.value.ren g.value.ren ∧
        Denotes 3 f.value.nren g.value.nren ∧ g.comment = trimText f.comment)
        x.factors.rows u.rows ∧
      (x.factors.IsTranscript Factor.IsTranscript u ↔
        ∀ f ∈ x.factors.rows, f.comment ≠ Factor.nearbyNote) ∧
      (l.settings.nearby = false ∨ l.settings.location.isSome →
        x.factors.IsTranscript Factor.IsTranscript u) := by
  obtain ⟨c, hc, hread, hnoted, l, hl, hwritable⟩ := read_completedFile h
  have hiff : x.factors.IsTranscript Factor.IsTranscript x.factors.reread ↔
      x.factors.IsWritable := by
    rw [FactorTable.isTranscript_reread_iff]
    exact ⟨fun ht => ⟨hnoted.metadata, fun f hf => ⟨hnoted.isPrintable.comments f hf, ht f hf⟩⟩,
      fun hw f hf => (hw.comments f hf).isTrimmed⟩
  refine ⟨l, c, _, hl, hc, hread, rfl, ?_, hiff.trans hnoted.isWritable_iff,
    fun hs => hiff.2 (hwritable hs)⟩
  rw [FactorTable.reread, List.forall₂_map_right_iff, List.forall₂_same]
  exact fun f _ => ⟨rfl, (denotes_iff _ _).2 rfl, (denotes_iff _ _).2 rfl, rfl⟩

/-- A bundle with a factor that has no comment, for the nearby perimeter. -/
def nearbyBundle : Loaded :=
  ⟨{ runId := "near", nearby := true }, gasBoiler, some CommandLine.gridOnly⟩

theorem run_nearbyBundle : ∃ u x, load u (.ofText "near") = .ok nearbyBundle ∧
    (run u (.ofText "near") "near" .current none).result = .ok (x, none) ∧
    ∃ f ∈ x.factors.rows, f.comment = Factor.nearbyNote := by
  have hs : nearbyBundle.Survives :=
    ⟨⟨nofun, by decide +kernel⟩, by decide, by decide +kernel,
      by simpa [nearbyBundle] using CommandLine.isWritable_gridOnly, by decide +kernel⟩
  have hp : IsFresh {} (.ofText "near") := ⟨⟨_, rfl⟩, by decide +kernel⟩
  have hraw : nearbyBundle.settings.rawFactors nearbyBundle.factors .current =
      .ok CommandLine.gridOnly := rfl
  obtain ⟨x, hx, -⟩ :=
    RunSettings.exists_prepare_eq_ok hraw (by decide) nearbyBundle.components
  obtain ⟨u, hload, hrun⟩ := hp.exists_run hs hx "near"
  refine ⟨u, x, hload, hrun, ?_⟩
  obtain ⟨raw, full, hraw', hfull, rfl⟩ := RunSettings.prepare_eq_ok_iff.1 hx
  obtain rfl : CommandLine.gridOnly = raw := Except.ok.inj (hraw.symm.trans hraw')
  have hrow := FactorTable.mem_rows_of_complete hfull List.mem_cons_self (by decide)
  exact ⟨_, List.mem_map_of_mem hrow, rfl⟩

theorem completedFile_read_back_nearby : ∃ t x c u,
    (run t (.ofText "near") "near" .current none).result = .ok (x, none) ∧
    (run t (.ofText "near") "near" .current none).files.read
      (Path.child (.ofText "near") completedFile) = .ok c ∧
    FactorTable.read c.readText = .ok u ∧ u.metadata = x.factors.metadata ∧
    ¬ x.factors.IsTranscript Factor.IsTranscript u := by
  obtain ⟨t, x, -, hrun, f, hf, hc⟩ := run_nearbyBundle
  obtain ⟨l, c, u, -, hfile, hread, hmeta, -, hiff, -⟩ := completedFile_read_back hrun
  exact ⟨t, x, c, u, hrun, hfile, hread, hmeta, fun h => hiff.1 h f hf hc⟩

/-- The file of completed factors need not be read as the factors of the run. -/
theorem not_completedFile_isTranscript :
    ¬ ∀ (t : Files) (p : Path) (place : String) (algorithm : Option BalanceAlgorithm)
        (x : Prepared) (b : Option Balance),
      (run t p place .current algorithm).result = .ok (x, b) →
        ∃ c u, (run t p place .current algorithm).files.read (p.child completedFile) = .ok c ∧
          FactorTable.read c.readText = .ok u ∧ x.factors.IsTranscript Factor.IsTranscript u := by
  intro h
  obtain ⟨t, x, -, hrun, f, hf, hc⟩ := run_nearbyBundle
  obtain ⟨c, u, hfile, hread, htranscript⟩ := h _ _ _ _ _ _ hrun
  obtain ⟨c', hfile', hread', hnoted, -⟩ := read_completedFile hrun
  obtain rfl : c' = c := Except.ok.inj (hfile'.symm.trans hfile)
  obtain rfl : x.factors.reread = u := Except.ok.inj (hread'.symm.trans hread)
  rw [FactorTable.isTranscript_reread_iff] at htranscript
  exact Factor.not_isTrimmed_nearbyNote (hc ▸ htranscript f hf)

end Bundle

end PrimaryEnergy
