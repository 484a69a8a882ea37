/-
  The text form of factor tables, read back.

  * `FactorTable.IsPrintable` tables have metadata that survive in lines and comments without
    line breaks, and `read_text_of_printable`: their text is read as the table with trimmed
    comments and every number replaced by the one that its three decimals stand for
    (`FactorTable.reread`);
  * `FactorTable.IsWritable` tables have comments that are trimmed: all that is read is such a
    table (`isWritable_of_read`), and `read_text`: only their numbers change
    (`FactorTable.rounded`);
  * `text_rounded`: that table has the same text.
-/
import PrimaryEnergy.Factor.Text
import PrimaryEnergy.Proofs.Table.Field

namespace PrimaryEnergy

open Text TableText Decimal

/-! ## Rows -/

namespace Factor

/-- The factor with the values that their texts stand for. -/
def rounded (f : Factor Float) : Factor Float := { f with value := f.value.rounded }

theorem line_rounded (f : Factor Float) : f.rounded.line = f.line := by
  have hfields : f.rounded.fields = f.fields := by
    rw [fields, fields, rounded, Pair.rounded, fixed_roundedTo, fixed_roundedTo]
  rw [line, line, hfields]
  rfl

theorem isField_of_mem_fields {f : Factor Float} : ∀ p ∈ f.fields, IsField p := by
  intro p hp
  simp only [fields, Key.tokens, List.cons_append, List.nil_append, List.mem_cons,
    List.not_mem_nil, or_false] at hp
  rcases hp with rfl | rfl | rfl | rfl | rfl | rfl
  · exact LawfulToken.isField _
  · exact LawfulToken.isField _
  · exact LawfulToken.isField _
  · exact LawfulToken.isField _
  · exact isField_fixed 3 _
  · exact isField_fixed 3 _

/-- The factor that its line shows, the comment without blanks at its ends. -/
def reread (f : Factor Float) : Factor Float := ⟨f.key, f.value.rounded, trimText f.comment⟩

theorem reread_eq_rounded_iff {f : Factor Float} :
    f.reread = f.rounded ↔ IsTrimmed f.comment.toList := by
  rw [isTrimmed_iff]
  constructor
  · intro h
    have hc : trimText f.comment = f.comment := congrArg Factor.comment h
    rw [← String.toList_inj, trimText, String.toList_ofList] at hc
    exact hc
  · intro h
    rw [reread, trimText, h, String.ofList_toList]
    rfl

theorem ofFields_fields (f : Factor Float) (comment : List Char) :
    ofFields (Token.text f.key.carrier).toList (Token.text f.key.source).toList
      (Token.text f.key.dest).toList (Token.text f.key.step).toList
      (fixed 3 f.value.ren).toList (fixed 3 f.value.nren).toList comment =
      .ok ⟨f.key, f.value.rounded, String.ofList comment⟩ := by
  simp only [ofFields, Token.ofChars?_text, toList_fixed, fieldNumber?_fixedChars]
  rfl

/-- No carrier is called like a column. -/
theorem lowerAscii_carrier_ne (c : Carrier) : lowerAscii (Token.text c).toList ≠ headingWord := by
  cases c <;> decide

/-- **The line of a row is read as the row**, with the values that their texts stand for. -/
theorem readLine_line (f : Factor Float) :
    readLine readRow f.line.toList = .ok ⟨[], [f.reread]⟩ := by
  have hne : f.fields ≠ [] := nofun
  have hof := of_rowLine_trim hne isField_of_mem_fields f.comment
  have hfields : f.fields.map String.toList = [(Token.text f.key.carrier).toList,
      (Token.text f.key.source).toList, (Token.text f.key.dest).toList,
      (Token.text f.key.step).toList, (fixed 3 f.value.ren).toList,
      (fixed 3 f.value.nren).toList] := rfl
  have hrow (raw : List Char) :
      readRow raw (f.fields.map String.toList) (trim f.comment.toList) = .ok (some f.reread) := by
    unfold readRow
    rw [hfields, if_neg]
    · simp only [ofFields_fields]
      rfl
    · exact fun hh => lowerAscii_carrier_ne f.key.carrier (Option.some.inj hh)
  rw [readLine, line, hof]
  simp only [hrow]
  rfl

end Factor

/-! ## Tables -/

namespace FactorTable

/-- A table that can be written. -/
structure IsWritable (t : FactorTable Float) : Prop where
  /-- All metadata can be written as lines. -/
  metadata : ∀ e ∈ t.metadata, e.IsWritable
  /-- All comments can be written at the end of lines. -/
  comments : ∀ f ∈ t.rows, IsRemark f.comment

/-- The table with the values that their texts stand for. -/
def rounded (t : FactorTable Float) : FactorTable Float := ⟨t.metadata, t.rows.map Factor.rounded⟩

theorem text_rounded (t : FactorTable Float) : t.rounded.text = t.text := by
  have hlines : t.rounded.rows.map Factor.line = t.rows.map Factor.line := by
    rw [rounded, List.map_map]
    exact List.map_congr_left fun f _ => f.line_rounded
  rw [text, text, hlines]
  rfl

theorem keys_rounded (t : FactorTable Float) :
    t.rounded.rows.map (·.key) = t.rows.map (·.key) := by
  rw [rounded, List.map_map]
  rfl

theorem readLine_heading : readLine Factor.readRow heading.toList = .ok {} := by decide

/-- A table whose text has a line for each entry and each row. -/
structure IsPrintable (t : FactorTable Float) : Prop where
  metadata : ∀ e ∈ t.metadata, e.IsWritable
  comments : ∀ f ∈ t.rows, OneLine f.comment.toList

theorem IsWritable.isPrintable {t : FactorTable Float} (h : t.IsWritable) : t.IsPrintable :=
  ⟨h.metadata, fun f hf => (h.comments f hf).oneLine⟩

/-- The text of a table consists of lines. -/
theorem oneLine_lines {t : FactorTable Float} (h : t.IsPrintable) :
    ∀ l ∈ t.metadata.map metaLine ++ heading :: t.rows.map Factor.line, OneLine l.toList := by
  intro l hl
  rcases List.mem_append.1 hl with hl | hl
  · obtain ⟨e, he, rfl⟩ := List.mem_map.1 hl
    exact oneLine_metaLine (h.metadata e he)
  · rcases List.mem_cons.1 hl with rfl | hl
    · decide
    · obtain ⟨f, hf, rfl⟩ := List.mem_map.1 hl
      exact oneLine_rowLine Factor.isField_of_mem_fields (h.comments f hf)

/-- The table that its text shows. -/
def reread (t : FactorTable Float) : FactorTable Float := ⟨t.metadata, t.rows.map Factor.reread⟩

theorem reread_eq_rounded_of_writable {t : FactorTable Float} (h : t.IsWritable) :
    t.reread = t.rounded :=
  congrArg (Table.mk t.metadata)
    (List.map_congr_left fun f hf => Factor.reread_eq_rounded_iff.2 (h.comments f hf).isTrimmed)

/-- **The text of a table is read as what it shows.** -/
theorem read_text_of_printable {t : FactorTable Float} (h : t.IsPrintable) :
    read t.text = .ok t.reread := by
  have hlines : ∀ l ∈ metaLines t.metadata ++
      (heading, ({} : FactorTable Float)) :: rowLines Factor.line Factor.reread t.rows,
      OneLine l.1.toList ∧ readLine Factor.readRow l.1.toList = .ok l.2 := by
    intro l hl
    rcases List.mem_append.1 hl with hl | hl
    · exact readLine_of_mem_metaLines h.metadata l hl
    · rcases List.mem_cons.1 hl with rfl | hl
      · exact ⟨by decide, readLine_heading⟩
      · obtain ⟨f, hf, rfl⟩ := List.mem_map.1 hl
        exact ⟨oneLine_rowLine Factor.isField_of_mem_fields (h.comments f hf),
          f.readLine_line⟩
  simpa [read, text, reread] using readWith_joinLines hlines

/-- **The text of a table is read as the table**, with the values that their texts stand for. -/
theorem read_text {t : FactorTable Float} (h : t.IsWritable) : read t.text = .ok t.rounded := by
  rw [read_text_of_printable h.isPrintable, reread_eq_rounded_of_writable h]

/-- All tables that are read can be written. -/
theorem isWritable_of_read {s : String} {t : FactorTable Float} (h : read s = .ok t) :
    t.IsWritable := by
  have hrow : ∀ raw fields comment f, Factor.readRow raw fields comment = .ok (some f) →
      IsRemark (String.ofList comment) → IsRemark f.comment := by
    intro raw fields comment f hf hc
    unfold Factor.readRow at hf
    split_ifs at hf
    · cases hf
    · split at hf
      · split at hf
        · rename_i hof
          cases hf
          unfold Factor.ofFields at hof
          split at hof
          · cases hof; exact hc
          · cases hof
        · cases hf
      · cases hf
  obtain ⟨hmeta, hcomments⟩ := isWritable_of_readWith hrow h
  exact ⟨hmeta, hcomments⟩

end FactorTable

end PrimaryEnergy
