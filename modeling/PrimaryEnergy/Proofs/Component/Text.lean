/-
  The text form of component tables, read back.

  The printer always writes the service and never the number of a row; the reader takes the
  first field for the carrier and the fourth for the service, as no carrier is a number and
  every service is one of the words that it knows.

  * `ComponentTable.IsWritable` tables have metadata and comments that survive in lines, and as
    many values in every row, but not none: all that is read is such a table
    (`isWritable_of_read`);
  * `read_text`: the text of such a table is read as the table with every value replaced by the
    one that its two decimals stand for (`ComponentTable.rounded`).
-/
import PrimaryEnergy.Component.Text
import PrimaryEnergy.Proofs.Table.Field

namespace PrimaryEnergy

open Text TableText Decimal

/-! ## Rows -/

namespace Component

/-- The component with the values that their texts stand for. -/
def rounded (c : Component Float) : Component Float :=
  { c with values := c.values.map (roundedTo 2) }

def words (c : Component Float) : List String :=
  [Token.text c.carrier, Token.text c.flow.type, Token.text c.flow.subtype, Token.text c.service]

variable {c : Component Float}

theorem isField_of_mem_words : ∀ p ∈ c.words, IsField p := by
  intro p hp
  simp only [words, List.mem_cons, List.not_mem_nil, or_false] at hp
  rcases hp with rfl | rfl | rfl | rfl <;> exact LawfulToken.isField _

theorem isField_of_mem_fields :
    ∀ p ∈ c.words ++ c.values.map (fixed 2), IsField p := by
  intro p hp
  rcases List.mem_append.1 hp with hp | hp
  · exact isField_of_mem_words p hp
  · obtain ⟨x, -, rfl⟩ := List.mem_map.1 hp
    exact isField_fixed 2 x

/-- The values, which are written as one field, are fields of their own in the line. -/
theorem line_eq (h : c.values ≠ []) :
    c.line = rowLine (c.words ++ c.values.map (fixed 2)) c.comment := by
  have hwords : c.words ≠ [] := nofun
  have hvalues : c.values.map (fixed 2) ≠ [] := fun hn => h (List.map_eq_nil_iff.1 hn)
  have hfields : c.fields = c.words ++ [joinText ", " (c.values.map (fixed 2))] := rfl
  simp only [line, rowLine, hfields, joinText]
  rw [String.intercalate_append_of_ne_nil hwords (List.cons_ne_nil _ _),
    String.intercalate_append_of_ne_nil hwords hvalues, String.intercalate_singleton]

/-- No carrier is the number of a row. -/
theorem isRowNumber_carrier (k : Carrier) : isRowNumber (Token.text k).toList = false := by
  cases k <;> decide

theorem splitService_text (s : Service) (vs : List (List Char)) :
    splitService ((Token.text s).toList :: vs) = (s, vs) := by
  simp only [splitService, Token.ofChars?_text]

theorem mapM_freeNumber? (vs : List Float) :
    ((vs.map (fixed 2)).map String.toList).mapM freeNumber? = some (vs.map (roundedTo 2)) := by
  have hread : (freeNumber? ∘ String.toList) ∘ fixed 2 = fun x => pure (roundedTo 2 x) := by
    funext x
    simp only [Function.comp_apply, toList_fixed, freeNumber?_fixedChars]
    rfl
  rw [List.mapM_map, List.mapM_map, hread, List.mapM_pure]
  rfl

theorem ofTokens_text (k : Carrier) (f : Flow) :
    ofTokens (Token.text k).toList (Token.text f.type).toList (Token.text f.subtype).toList =
      .ok (k, f) := by
  simp only [ofTokens, Token.ofChars?_text, Flow.of?_eq_some_iff.2 ⟨rfl, rfl⟩]

/-- **The line of a row is read as the row**, with the values that their texts stand for. -/
theorem readLine_line (hv : c.values ≠ []) (h : IsRemark c.comment) :
    readLine readRow c.line.toList = .ok ⟨[], [c.rounded]⟩ := by
  have hof := of_rowLine (by simp [words]) (isField_of_mem_fields (c := c)) h
  have hrow (raw : List Char) :
      readRow raw ((c.words ++ c.values.map (fixed 2)).map String.toList) c.comment.toList =
        .ok (some c.rounded) := by
    have hvalues := mapM_freeNumber? c.values
    obtain ⟨k, f, s, _ | ⟨v, vs⟩, n⟩ := c
    · exact absurd rfl hv
    · simp only [List.map_cons] at hvalues
      simp only [words, List.cons_append, List.nil_append, List.map_cons, readRow, dropRowNumber,
        isRowNumber_carrier, Bool.false_eq_true, if_false, splitService_text, hvalues,
        ofTokens_text, String.ofList_toList]
      rfl
  rw [readLine, line_eq hv, hof]
  simp only [hrow]
  rfl

theorem oneLine_line (hv : c.values ≠ []) (h : IsRemark c.comment) : OneLine c.line.toList := by
  rw [line_eq hv]
  exact oneLine_rowLine isField_of_mem_fields h.oneLine

/-- A row that is read has a value, and the comment of its line. -/
theorem of_readRow {raw comment : List Char} {fields : List (List Char)}
    (h : readRow raw fields comment = .ok (some c)) :
    c.values ≠ [] ∧ c.comment = String.ofList comment := by
  unfold readRow at h
  split at h
  · rename_i x xs _
    generalize splitService (x :: xs) = p at h
    obtain ⟨s, values⟩ := p
    simp only at h
    split at h
    · rename_i v vs ws hws
      split at h
      · cases h
        refine ⟨?_, rfl⟩
        -- the first value is a number, so there is one
        rintro rfl
        simp [Option.bind_eq_some_iff] at hws
      · cases h
    · cases h
  · cases h

end Component

/-! ## Tables -/

theorem length_distinct_le_one_iff {τ : Type} [DecidableEq τ] {l : List τ} :
    (distinct l).length ≤ 1 ↔ ∀ a ∈ l, ∀ b ∈ l, a = b := by
  constructor
  · intro h a ha b hb
    rw [← mem_distinct] at ha hb
    obtain ⟨c, hc⟩ := List.length_eq_one_iff.1 (le_antisymm h (List.length_pos_of_mem ha))
    rw [hc, List.mem_singleton] at ha hb
    rw [ha, hb]
  · intro h
    rcases hd : distinct l with _ | ⟨a, _ | ⟨b, r⟩⟩
    · simp
    · simp
    · -- two distinct elements, which are equal
      have hn := nodup_distinct l
      have ha : a ∈ l := mem_distinct.1 (by simp [hd])
      have hb : b ∈ l := mem_distinct.1 (by simp [hd])
      rw [hd, h a ha b hb] at hn
      simp at hn

namespace ComponentTable

/-- A table that can be written: its metadata and comments survive in lines, and its rows have
    equally many values, but not none. -/
structure IsWritable (t : ComponentTable Float) : Prop where
  metadata : ∀ e ∈ t.metadata, e.IsWritable
  comments : ∀ c ∈ t.rows, IsRemark c.comment
  values_ne_nil : ∀ c ∈ t.rows, c.values ≠ []
  sameLength : ∀ c ∈ t.rows, ∀ d ∈ t.rows, c.values.length = d.values.length

/-- The table with the values that their texts stand for. -/
def rounded (t : ComponentTable Float) : ComponentTable Float :=
  ⟨t.metadata, t.rows.map Component.rounded⟩

theorem length_lengths_le_one_iff {rows : List (Component Float)} :
    (lengths rows).length ≤ 1 ↔
      ∀ c ∈ rows, ∀ d ∈ rows, c.values.length = d.values.length := by
  rw [lengths, List.length_mergeSort, length_distinct_le_one_iff]
  simp only [List.forall_mem_map]

theorem read_eq_ok_iff {s : String} {t : ComponentTable Float} :
    read s = .ok t ↔ readWith Component.readRow s = .ok t ∧
      ∀ c ∈ t.rows, ∀ d ∈ t.rows, c.values.length = d.values.length := by
  unfold read
  cases hs : readWith Component.readRow s with
  | error e => exact ⟨nofun, nofun⟩
  | ok u =>
    simp only [length_lengths_le_one_iff]
    split_ifs with hl
    · constructor
      · rintro ⟨⟩; exact ⟨rfl, hl⟩
      · rintro ⟨⟨⟩, -⟩; rfl
    · constructor
      · nofun
      · rintro ⟨⟨⟩, hu⟩; exact absurd hu hl

/-- The text of a table consists of lines. -/
theorem oneLine_lines {t : ComponentTable Float} (h : t.IsWritable) :
    ∀ l ∈ t.metadata.map metaLine ++ t.rows.map Component.line, OneLine l.toList := by
  intro l hl
  rcases List.mem_append.1 hl with hl | hl
  · obtain ⟨e, he, rfl⟩ := List.mem_map.1 hl
    exact oneLine_metaLine (h.metadata e he)
  · obtain ⟨c, hc, rfl⟩ := List.mem_map.1 hl
    exact Component.oneLine_line (h.values_ne_nil c hc) (h.comments c hc)

/-- **The text of a table is read as the table**, with the values that their texts stand for. -/
theorem read_text {t : ComponentTable Float} (h : t.IsWritable) : read t.text = .ok t.rounded := by
  have hlines : ∀ l ∈ metaLines t.metadata ++ rowLines Component.line Component.rounded t.rows,
      OneLine l.1.toList ∧ readLine Component.readRow l.1.toList = .ok l.2 := by
    intro l hl
    rcases List.mem_append.1 hl with hl | hl
    · exact readLine_of_mem_metaLines h.metadata l hl
    · obtain ⟨c, hc, rfl⟩ := List.mem_map.1 hl
      have hv := h.values_ne_nil c hc
      exact ⟨Component.oneLine_line hv (h.comments c hc),
        Component.readLine_line hv (h.comments c hc)⟩
  refine read_eq_ok_iff.2 ⟨by simpa [text, rounded] using readWith_joinLines hlines, ?_⟩
  simpa [rounded, Component.rounded] using h.sameLength

theorem isWritable_of_read {s : String} {t : ComponentTable Float} (h : read s = .ok t) :
    t.IsWritable := by
  obtain ⟨hread, hlength⟩ := read_eq_ok_iff.1 h
  have hrow : ∀ raw fields comment c, Component.readRow raw fields comment = .ok (some c) →
      IsRemark (String.ofList comment) → IsRemark c.comment ∧ c.values ≠ [] := by
    intro raw fields comment c hc hremark
    obtain ⟨hv, hcomment⟩ := Component.of_readRow hc
    exact ⟨hcomment ▸ hremark, hv⟩
  obtain ⟨hmeta, hrows⟩ := isWritable_of_readWith hrow hread
  exact ⟨hmeta, fun c hc => (hrows c hc).1, fun c hc => (hrows c hc).2, hlength⟩

end ComponentTable

end PrimaryEnergy
