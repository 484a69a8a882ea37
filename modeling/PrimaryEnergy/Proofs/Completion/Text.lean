/-
  The text of completed tables.

  * `isWritable_of_complete`: a table that can be written can still be written when it is
    completed;
  * `read_text_of_complete`: as long as the factors for other uses are kept, the text of a
    completed table is read as a table that is complete and has the same text;
  * `run_complete_iff` and `completedFile_again`: so the command that completes a file prints
    again what it has printed.
-/
import PrimaryEnergy.CommandLine.Commands
import PrimaryEnergy.Proofs.Completion.Again
import PrimaryEnergy.Proofs.Factor.Text
import PrimaryEnergy.Proofs.Metadata

namespace PrimaryEnergy

open Text TableText Decimal

/-! ## What completion writes -/

namespace TableText

/-- A remark that is not empty. -/
structure IsNote (s : String) : Prop extends IsRemark s where
  ne_nil : s.toList ≠ []

theorem isNote_ofList {s : List Char} (h : OneLine s ∧ trim s = s ∧ s ≠ []) :
    IsNote (String.ofList s) := by
  obtain ⟨hline, htrim, hne⟩ := h
  refine ⟨⟨?_, isTrimmed_iff.2 ?_⟩, ?_⟩
  all_goals rwa [String.toList_ofList]

theorem isNote_append {s r : List Char}
    (h : OneLine (s ++ r) ∧ trim (s ++ r) = s ++ r ∧ s ++ r ≠ []) :
    IsNote (String.ofList s ++ String.ofList r) := by
  rw [← String.ofList_append]
  exact isNote_ofList h

/-- Two notes with a blank between them. -/
theorem IsNote.append_blank {s r : String} (hs : IsNote s) (hr : IsNote r) :
    IsNote (s ++ " " ++ r) := by
  have hlist : (s ++ " " ++ r).toList = s.toList ++ ' ' :: r.toList := by simp
  refine ⟨⟨?_, ?_⟩, ?_⟩
  · rw [hlist]
    exact oneLine_append hs.oneLine (oneLine_cons rfl hr.oneLine)
  · rw [hlist]
    refine isTrimmed_append hs.ne_nil hs.isTrimmed.head (List.cons_ne_nil _ _) fun c hc =>
      hr.isTrimmed.last c ?_
    obtain ⟨d, l, hd⟩ := List.exists_cons_of_ne_nil hr.ne_nil
    rwa [hd, List.getLast?_cons_cons, ← hd] at hc
  · rw [hlist]
    simp

end TableText

theorem Pair.isRemark_metaText (p : Pair Float) : IsRemark p.metaText := by
  have hfields : ∀ s ∈ [fixed 3 p.ren, fixed 3 p.nren], IsField s := by
    intro s hs
    rcases List.mem_pair.1 hs with rfl | rfl
    · exact isField_fixed 3 p.ren
    · exact isField_fixed 3 p.nren
  have htext : p.metaText = joinText ", " [fixed 3 p.ren, fixed 3 p.nren] := by
    rw [metaText, joinText, String.intercalate_cons_cons, String.intercalate_singleton]
  rw [htext]
  exact ⟨oneLine_joinText hfields, (joinText_fields (List.cons_ne_nil _ _) hfields).2⟩

theorem Family.isWritable_entry (i : Family) (p : Pair Float) :
    MetaEntry.IsWritable ⟨i.metaKey, p.metaText⟩ := by
  have hkey : i.metaKey.toList ≠ [] ∧ ':' ∉ i.metaKey.toList := by
    cases i <;> decide
  have hremark : IsRemark i.metaKey := by
    cases i <;> exact (isNote_ofList (by decide)).toIsRemark
  exact ⟨hkey.1, hkey.2, hremark, p.isRemark_metaText⟩

namespace Completion

variable {rows : List (Factor Float)} {values defaults : PerFamily (Pair Float)}

theorem isNote_exportNote (d : Dest) : IsNote (exportNote d) := by
  cases d <;> exact isNote_ofList (by decide)

theorem isNote_savedNote (d : Dest) : IsNote (savedNote d) := by
  cases d <;> exact isNote_ofList (by decide)

theorem isNote_cogeneratedNote (d : Dest) : IsNote (cogeneratedNote d) := by
  cases d <;> exact isNote_append (by decide)

theorem isNote_originNote (value default : Pair Float) : IsNote (originNote value default) := by
  unfold originNote
  split_ifs <;> exact isNote_ofList (by decide)

theorem isNote_producedRow (c : Carrier) (s : Source) (d : Dest) :
    IsNote (producedRow rows values defaults c s d).comment := by
  cases s with
  | cogeneration => exact (isNote_cogeneratedNote d).append_blank (isNote_originNote _ _)
  | grid => exact isNote_exportNote d
  | onsite => exact isNote_exportNote d

/-- The comments of all rows that are required can be written. -/
theorem isNote_of_mem_requirements :
    ∀ q ∈ requirements rows values defaults, IsNote q.row.comment := by
  intro q hq
  rcases List.mem_append.1 hq with hq | hq
  · simp only [firstRequirements, List.mem_cons, List.not_mem_nil, or_false] at hq
    rcases hq with rfl | rfl | rfl <;> exact isNote_ofList (by decide)
  · rcases List.mem_cons.1 hq with rfl | hq
    · exact isNote_append (by decide)
    · rcases List.mem_append.1 hq with hq | hq
      · obtain ⟨⟨c, s⟩, -, hq⟩ := List.mem_flatMap.1 hq
        simp only [exportRequirements, List.mem_cons, List.not_mem_nil, or_false] at hq
        rcases hq with rfl | rfl | rfl | rfl
        · exact isNote_producedRow c s .toGrid
        · exact isNote_producedRow c s .toOtherUses
        · exact isNote_savedNote .toGrid
        · exact isNote_savedNote .toOtherUses
      · rcases List.mem_pair.1 hq with rfl | rfl
        · exact isNote_ofList (by decide)
        · exact isNote_ofList (by decide)

end Completion

namespace FactorTable

open Completion

variable {t u : FactorTable Float} {o : Overrides} {defaults : PerFamily (Pair Float)}
  {strip : Bool}

theorem isWritable_recordValues (h : t.IsWritable) (values : PerFamily (Pair Float)) :
    (t.recordValues values).IsWritable := by
  refine ⟨?_, h.comments⟩
  have hset (m : Metadata) (i : Family) (hm : ∀ e ∈ m, e.IsWritable) :
      ∀ e ∈ m.set i.metaKey (values.get i).metaText, e.IsWritable :=
    Metadata.forall_set hm (i.isWritable_entry _)
  have hcogenerated := hset _ .cogenToOther (hset _ .cogenToGrid h.metadata)
  exact hset _ .district2 (hset _ .district1 hcogenerated)

/-- A row that was there before is still there, unless it is removed. -/
theorem mem_rows_of_complete (h : t.complete o defaults strip = .ok u) {f : Factor Float}
    (hf : f ∈ t.rows) (hs : stays strip f = true) : f ∈ u.rows := by
  obtain ⟨-, rfl⟩ := complete_eq_ok_iff.1 h
  rw [rows_stripped]
  exact List.mem_filter.2 ⟨List.mem_append_left _ hf, hs⟩

/-- A row of a completed table was there before, or has a note. -/
theorem mem_or_isNote_of_complete (h : t.complete o defaults strip = .ok u) :
    ∀ f ∈ u.rows, f ∈ t.rows ∨ IsNote f.comment := by
  obtain ⟨-, rfl⟩ := complete_eq_ok_iff.1 h
  intro f hf
  rw [rows_stripped] at hf
  rcases List.mem_append.1 (List.mem_filter.1 hf).1 with hf | hf
  · exact Or.inl hf
  · obtain ⟨q, hq, -, rfl⟩ := mem_missing.1 hf
    exact Or.inr (isNote_of_mem_requirements q hq)

/-- A table that can be written can still be written when it is completed. -/
theorem isWritable_of_complete (ht : t.IsWritable) (h : t.complete o defaults strip = .ok u) :
    u.IsWritable := by
  refine ⟨?_, fun f hf => ?_⟩
  · obtain ⟨-, rfl⟩ := complete_eq_ok_iff.1 h
    rw [metadata_stripped]
    exact (isWritable_recordValues ht (t.userValues o defaults)).metadata
  · rcases mem_or_isNote_of_complete h f hf with hf | hf
    · exact ht.comments f hf
    · exact hf.toIsRemark

/-! ## Reading and completing the text -/

/-- The text of a completed table is read as a table that is complete and has this text. -/
theorem read_text_of_complete (ht : t.IsWritable) (h : t.complete o defaults false = .ok u) :
    read u.text = .ok u.rounded ∧ u.rounded.complete o defaults false = .ok u.rounded ∧
      u.rounded.text = u.text :=
  ⟨read_text (isWritable_of_complete ht h), complete_eq_self h rfl (keys_rounded u),
    text_rounded u⟩

/-- A file with the text of a table is read as this text. -/
theorem readText_text (ht : t.IsPrintable) : (Content.raw t.text).readText = t.text := by
  rw [Content.readText, Content.text, text, plainBreaks_joinLines (oneLine_lines ht),
    String.ofList_toList]

end FactorTable

/-! ## The command -/

namespace CommandLine

open FactorTable Completion

variable {files files' : Files} {a : Arguments} {place place' : String} {u : FactorTable Float}

theorem completedFile_eq_ok_iff {strip : Bool} :
    completedFile files place false strip false = .ok u ↔
      ∃ s t, readText files place = .ok s ∧ FactorTable.read s = .ok t ∧
        t.complete .none Regulation.current.defaults strip = .ok u := by
  unfold completedFile
  cases hs : readText files place with
  | error e => exact ⟨nofun, nofun⟩
  | ok s =>
    cases ht : FactorTable.read s with
    | error e =>
      refine ⟨fun h => ?_, ?_⟩
      · simp [ht, bind, Except.bind, Except.mapError] at h
      · rintro ⟨_, t, ⟨⟩, h, -⟩
        rw [ht] at h; cases h
    | ok t =>
      cases hu : t.complete .none Regulation.current.defaults strip with
      | error e =>
        refine ⟨fun h => ?_, ?_⟩
        · simp [ht, hu, completeUnder, checkKeys, bind, Except.bind, Except.mapError] at h
        · rintro ⟨_, _, ⟨⟩, h, hc⟩
          rw [ht] at h; cases h
          rw [hu] at hc; cases hc
      | ok v =>
        simp [ht, hu, completeUnder, checkKeys, bind, Except.bind, Except.mapError]

theorem isWritable_of_completedFile (h : completedFile files place false false false = .ok u) :
    u.IsWritable := by
  obtain ⟨s, t, -, ht, hu⟩ := completedFile_eq_ok_iff.1 h
  exact isWritable_of_complete (isWritable_of_read ht) hu

theorem readText_of_read (hfile : files.read (.ofText place) = .ok (.raw u.text))
    (hu : u.IsWritable) : readText files place = .ok u.text := by
  rw [readText, hfile]
  exact congrArg Except.ok (readText_text hu.isPrintable)

/-- A file with the text of a completed file is completed to a table with this text. -/
theorem completedFile_again (h : completedFile files place false false false = .ok u)
    (hfile : files'.read (.ofText place') = .ok (.raw u.text)) :
    completedFile files' place' false false false = .ok u.rounded := by
  obtain ⟨s, t, -, ht, hu⟩ := completedFile_eq_ok_iff.1 h
  obtain ⟨hread, hcomplete, -⟩ := read_text_of_complete (isWritable_of_read ht) hu
  have htext := readText_of_read hfile (isWritable_of_completedFile h)
  exact completedFile_eq_ok_iff.2 ⟨u.text, u.rounded, htext, hread, hcomplete⟩

/-- The factors for other uses are kept, and nothing else is asked for. -/
structure KeepsOnly (a : Arguments) : Prop where
  keep : a.flag "keep-nepb" = true
  nearby : a.flag "nearby" = false
  strict : a.flag "strict" = false
  summary : a.flag "summary" = false

/-- The command succeeds with the text of the completed table. -/
theorem run_complete_iff (ha : KeepsOnly a) {out : String} :
    (Command.complete.run files a).exit = 0 ∧ (Command.complete.run files a).stdout = out ↔
      ∃ place u, a.operands = [place] ∧ completedFile files place false false false = .ok u ∧
        u.text = out := by
  have husage : (usageError files).exit ≠ 0 := nofun
  obtain ⟨operands, options, flags⟩ := a
  match operands with
  | [] => exact ⟨fun h => absurd h.1 husage, nofun⟩
  | _ :: _ :: _ => exact ⟨fun h => absurd h.1 husage, nofun⟩
  | [place] =>
    have hrun : Command.complete.run files ⟨[place], options, flags⟩ =
        printing files (printCompleted files ⟨[place], options, flags⟩ place) := rfl
    rw [hrun, printCompleted, ha.keep, ha.nearby, ha.strict, ha.summary]
    cases hu : completedFile files place false false false with
    | error e => simp [hu, printing, orFail, Except.map, Except.mapError]
    | ok u => simp [hu, printing, orFail, Except.map, Except.mapError]

/-- **The text of a completed table is completed to the same text**, if the factors for other
    uses are kept; and the command that completes a file prints again what it has printed. -/
theorem text_completed_again :
    (∀ {s : String} {t u : FactorTable Float} {defaults : PerFamily (Pair Float)},
      FactorTable.read s = .ok t → t.complete .none defaults false = .ok u →
        ∃ t' u', FactorTable.read u.text = .ok t' ∧ t'.complete .none defaults false = .ok u' ∧
          u'.text = u.text) ∧
    ∀ {files files' : Files} {a : Arguments} {place' : String}, KeepsOnly a →
      (Command.complete.run files a).exit = 0 →
      files'.read (.ofText place') = .ok (.raw (Command.complete.run files a).stdout) →
        (Command.complete.run files' { a with operands := [place'] }).exit = 0 ∧
          (Command.complete.run files' { a with operands := [place'] }).stdout =
            (Command.complete.run files a).stdout := by
  constructor
  · intro s t u defaults ht hu
    exact ⟨u.rounded, u.rounded, read_text_of_complete (isWritable_of_read ht) hu⟩
  · intro files files' a place' ha hexit hfile
    obtain ⟨place, u, -, hu, hout⟩ := (run_complete_iff ha).1 ⟨hexit, rfl⟩
    rw [← hout] at hfile ⊢
    have ha' : KeepsOnly { a with operands := [place'] } :=
      ⟨ha.keep, ha.nearby, ha.strict, ha.summary⟩
    exact (run_complete_iff ha').2
      ⟨place', u.rounded, rfl, completedFile_again hu hfile, text_rounded u⟩

/-- Electricity from the grid, and nothing else. -/
def gridOnly : FactorTable Float := ⟨[], [⟨gridSupply .electricity, ⟨1, 2⟩, ""⟩]⟩

/-- A file with a text, and nothing else. -/
def singleFile (s : String) : Files := ⟨[(.ofText "factors.csv", .file (.raw s))]⟩

/-- To complete the file and to keep the factors for other uses. -/
def keepingUses : Arguments := ⟨["factors.csv"], [], [("keep-nepb", true)]⟩

theorem read_singleFile (s : String) :
    (singleFile s).read (.ofText "factors.csv") = .ok (.raw s) := by rfl

theorem isWritable_gridOnly : gridOnly.IsWritable := by
  refine ⟨nofun, fun f hf => ?_⟩
  rw [List.mem_singleton.1 hf]
  exact ⟨nofun, isTrimmed_iff.2 rfl⟩

theorem text_completed_again_gridOnly :
    (∃ t u t' u', FactorTable.read gridOnly.text = .ok t ∧
      t.complete .none Regulation.current.defaults false = .ok u ∧
      FactorTable.read u.text = .ok t' ∧
      t'.complete .none Regulation.current.defaults false = .ok u' ∧ u'.text = u.text) ∧
    ∃ out, (Command.complete.run (singleFile gridOnly.text) keepingUses).exit = 0 ∧
      (Command.complete.run (singleFile gridOnly.text) keepingUses).stdout = out ∧
      (Command.complete.run (singleFile out) keepingUses).exit = 0 ∧
      (Command.complete.run (singleFile out) keepingUses).stdout = out := by
  have ht : FactorTable.read gridOnly.text = .ok gridOnly.rounded := read_text isWritable_gridOnly
  have hv : verdict gridOnly.rounded.keys = none := by decide
  obtain ⟨u, hu⟩ := exists_complete_eq_ok hv .none Regulation.current.defaults false
  constructor
  · obtain ⟨t', u', h⟩ := text_completed_again.1 ht hu
    exact ⟨_, u, t', u', ht, hu, h⟩
  · have ha : KeepsOnly keepingUses := ⟨rfl, rfl, rfl, rfl⟩
    have hfile := readText_of_read (read_singleFile gridOnly.text) isWritable_gridOnly
    have hrun := (run_complete_iff ha).2 ⟨_, u, rfl, completedFile_eq_ok_iff.2
      ⟨_, _, hfile, ht, hu⟩, rfl⟩
    have hagain := text_completed_again.2 ha hrun.1 (read_singleFile _)
    exact ⟨_, hrun.1, rfl, hagain⟩

end CommandLine

end PrimaryEnergy
