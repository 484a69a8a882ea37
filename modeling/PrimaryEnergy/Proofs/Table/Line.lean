/-
  What the lines of a table are.

  A line is described by its parts and what stands between them, not by how it is cut up:

  * `IsIgnored`, `IsMetaLine` and `IsRowLine` are the three kinds of lines;
  * `readLine_eq_ok_iff`: what is read of a line, whatever its fields are read as.
-/
import PrimaryEnergy.Proofs.Table.Text

namespace PrimaryEnergy

open Text

namespace TableText

variable {l : List Char}

/-! ## Metadata -/

/-- The key ends at the first colon; blanks around key and value do not count. -/
theorem metaEntry?_eq_some_iff {body : List Char} {e : MetaEntry} :
    metaEntry? body = some e ↔ ∃ key value, body = key ++ ':' :: value ∧ ':' ∉ key ∧
      trim key ≠ [] ∧ e = ⟨String.ofList (trim key), String.ofList (trim value)⟩ := by
  unfold metaEntry?
  rcases hcut : cut ':' body with ⟨key, _ | value⟩
  · refine ⟨nofun, ?_⟩
    rintro ⟨key', value, hbody, hm, -⟩
    rw [cut_eq_some_iff.2 ⟨hbody, hm⟩] at hcut
    cases hcut
  · obtain ⟨hbody, hm⟩ := cut_eq_some_iff.1 hcut
    simp only
    split_ifs with h0
    · refine ⟨nofun, ?_⟩
      rintro ⟨key', value', hbody', hm', h0', -⟩
      rw [cut_eq_some_iff.2 ⟨hbody', hm'⟩] at hcut
      cases hcut
      exact absurd h0 h0'
    · constructor
      · rintro ⟨⟩
        exact ⟨key, value, hbody, hm, h0, rfl⟩
      · rintro ⟨key', value', hbody', hm', -, rfl⟩
        rw [cut_eq_some_iff.2 ⟨hbody', hm'⟩] at hcut
        cases hcut
        rfl

theorem metaEntry?_trim (body : List Char) : metaEntry? (trim body) = metaEntry? body := by
  obtain ⟨a, b, ha, hb, hbody⟩ := exists_blanks body
  have hcolon {x : List Char} (hx : ∀ c ∈ x, isBlank c = true) : ':' ∉ x := fun hm =>
    absurd (hx ':' hm) (by decide)
  rcases hcut : cut ':' (trim body) with ⟨key, _ | value⟩
  · obtain ⟨hkey, hm⟩ := cut_eq_none_iff.1 hcut
    have hm' : ':' ∉ body := by
      rw [hbody, hkey]
      simp only [List.mem_append, not_or]
      exact ⟨⟨hcolon ha, hm⟩, hcolon hb⟩
    simp only [hcut, metaEntry?, cut_eq_none hm']
  · obtain ⟨hkey, hm⟩ := cut_eq_some_iff.1 hcut
    have hm' : ':' ∉ a ++ key := by
      rw [List.mem_append, not_or]
      exact ⟨hcolon ha, hm⟩
    have hsplit : body = (a ++ key) ++ ':' :: (value ++ b) := by
      conv_lhs => rw [hbody, hkey]
      simp
    have hcut' := cut_append_cons hm' (value ++ b)
    rw [← hsplit] at hcut'
    simp only [hcut, metaEntry?, hcut', trim_append_left ha, trim_append_right hb]

/-! ## What a line is -/

/-- What follows the fields of a row: nothing, or a hash and a comment. -/
def IsComment (rest comment : List Char) : Prop :=
  rest = [] ∧ comment = [] ∨ ∃ r, rest = '#' :: r ∧ comment = trim r

/-- A line without blanks around it is empty, starts with the mark of metadata, is another remark,
    or has a body. -/
theorem line_cases (s : List Char) :
    s = [] ∨ (∃ x, s = metaMark ++ x) ∨ (∃ r, s = '#' :: r ∧ ¬ metaMark <+: s) ∨
      ∃ body rest comment, s = body ++ rest ∧ body ≠ [] ∧ '#' ∉ body ∧ IsComment rest comment := by
  by_cases hmark : metaMark <+: s
  · obtain ⟨x, rfl⟩ := hmark
    exact .inr (.inl ⟨x, rfl⟩)
  · rcases hcut : cut '#' s with ⟨body, o⟩
    have hm : '#' ∉ body := by
      have h := not_mem_cut '#' s
      rwa [hcut] at h
    by_cases hbody : body = []
    · subst hbody
      cases o with
      | none => exact .inl (cut_eq_none_iff.1 hcut).1
      | some r => exact .inr (.inr (.inl ⟨r, (cut_eq_some_iff.1 hcut).1, hmark⟩))
    · refine .inr (.inr (.inr ?_))
      cases o with
      | none =>
        refine ⟨body, [], [], ?_, hbody, hm, .inl ⟨rfl, rfl⟩⟩
        rw [List.append_nil, (cut_eq_none_iff.1 hcut).1]
      | some r =>
        exact ⟨body, '#' :: r, trim r, (cut_eq_some_iff.1 hcut).1, hbody, hm, .inr ⟨r, rfl, rfl⟩⟩

theorem of_metaMark_append (x : List Char) : Line.of (metaMark ++ x) = .metadata (trim x) := by
  have hprefix : metaMark.isPrefixOf (metaMark ++ x) = true :=
    List.isPrefixOf_iff_prefix.2 (List.prefix_append _ _)
  rw [Line.of, if_neg (by simp [metaMark]), if_pos hprefix, List.drop_left]

theorem of_remark {r : List Char} (h : ¬ metaMark <+: '#' :: r) :
    Line.of ('#' :: r) = .ignored := by
  rw [Line.of, if_neg (by simp), if_neg (by rwa [List.isPrefixOf_iff_prefix])]
  exact if_pos rfl

theorem of_body {body rest comment : List Char} (hne : body ≠ []) (hm : '#' ∉ body)
    (h : IsComment rest comment) :
    Line.of (body ++ rest) = .row ((fields ',' body).map trim) comment := by
  obtain ⟨c, cs, rfl⟩ := List.exists_cons_of_ne_nil hne
  have hc : c ≠ '#' := Ne.symm (List.ne_of_not_mem_cons hm)
  have hmark : ¬ metaMark.isPrefixOf (c :: cs ++ rest) = true := by
    rw [List.cons_append, metaMark, List.isPrefixOf_cons_cons]
    simp [hc.symm]
  have hhead : ¬ (c :: cs ++ rest).head? = some '#' := by simpa using hc
  have hparts : trim ((cut '#' (c :: cs ++ rest)).2.getD []) = comment ∧
      (cut '#' (c :: cs ++ rest)).1 = c :: cs := by
    rcases h with ⟨rfl, rfl⟩ | ⟨r, rfl, rfl⟩
    · rw [List.append_nil, cut_eq_none hm]
      exact ⟨rfl, rfl⟩
    · rw [cut_append_cons hm]
      exact ⟨rfl, rfl⟩
  rw [Line.of, if_neg (by simp), if_neg hmark, if_neg hhead]
  simp only [hparts, map_trim_fields_trim (show isBlank ',' = false from rfl)]

/-! ## Reading a line -/

/-- A line of metadata: a key that is not blank and a value, with the first colon between them. -/
def IsMetaLine (l : List Char) (e : MetaEntry) : Prop :=
  ∃ key value, trim l = metaMark ++ (key ++ ':' :: value) ∧ ':' ∉ key ∧ trim key ≠ [] ∧
    e = ⟨String.ofList (trim key), String.ofList (trim value)⟩

/-- A line that holds nothing: a blank one, or a remark that is no metadata. -/
def IsIgnored (l : List Char) : Prop :=
  trim l = [] ∨ ∃ r, trim l = '#' :: r ∧ ¬ metaMark <+: trim l

/-- A line with fields, with commas between them, and perhaps a comment behind a hash, which is the
    first one.  Blanks around fields and comment do not count. -/
def IsRowLine (l : List Char) (fs : List (List Char)) (comment : List Char) : Prop :=
  ∃ body rest pieces, trim l = body ++ rest ∧ body ≠ [] ∧ '#' ∉ body ∧ IsComment rest comment ∧
    body = [','].intercalate pieces ∧ (∀ p ∈ pieces, ',' ∉ p) ∧ pieces.map trim = fs

theorem of_of_isIgnored (h : IsIgnored l) : Line.of (trim l) = .ignored := by
  rcases h with h | ⟨r, h, hmark⟩
  · rw [h]
    rfl
  · rw [h] at hmark ⊢
    exact of_remark hmark

theorem of_of_isRowLine {fs : List (List Char)} {comment : List Char}
    (h : IsRowLine l fs comment) : Line.of (trim l) = .row fs comment := by
  obtain ⟨body, rest, pieces, hl, hne, hm, hrest, hbody, hcomma, rfl⟩ := h
  have hpieces : pieces ≠ [] := by
    rintro rfl
    exact hne hbody
  rw [hl, of_body hne hm hrest, fields_eq_iff.2 ⟨hpieces, hbody, hcomma⟩]

/-- A line holds nothing, starts with the mark of metadata, or has fields. -/
theorem isIgnored_or (l : List Char) :
    IsIgnored l ∨ (∃ x, trim l = metaMark ++ x) ∨ ∃ fs comment, IsRowLine l fs comment := by
  rcases line_cases (trim l) with hl | ⟨x, hl⟩ | ⟨r, hl, hmark⟩ |
    ⟨body, rest, comment, hl, hne, hm, hrest⟩
  · exact .inl (.inl hl)
  · exact .inr (.inl ⟨x, hl⟩)
  · exact .inl (.inr ⟨r, hl, hmark⟩)
  · obtain ⟨-, hbody, hcomma⟩ := fields_eq_iff.1 (rfl : fields ',' body = _)
    exact .inr (.inr ⟨_, comment, body, rest, _, hl, hne, hm, hrest, hbody, hcomma, rfl⟩)

/-- A line has no other fields and no other comment than those that are found in it. -/
theorem isRowLine_iff {fs : List (List Char)} {comment : List Char} :
    IsRowLine l fs comment ↔ Line.of (trim l) = .row fs comment := by
  refine ⟨of_of_isRowLine, fun h => ?_⟩
  rcases isIgnored_or l with hl | ⟨x, hl⟩ | ⟨fs', comment', hl⟩
  · rw [of_of_isIgnored hl] at h
    cases h
  · rw [hl, of_metaMark_append] at h
    cases h
  · have hrow := of_of_isRowLine hl
    rw [h] at hrow
    cases hrow
    exact hl

instance (l : List Char) (fs : List (List Char)) (comment : List Char) :
    Decidable (IsRowLine l fs comment) :=
  decidable_of_iff' _ isRowLine_iff

variable {ρ : Type} {row : RowReader ρ} {p : Table ρ}

theorem readLine_of_isMetaLine {e : MetaEntry} (h : IsMetaLine l e) :
    readLine row l = .ok ⟨[e], []⟩ := by
  obtain ⟨key, value, hl, hm, hkey, rfl⟩ := h
  have hentry := metaEntry?_eq_some_iff.2 ⟨key, value, rfl, hm, hkey, rfl⟩
  rw [readLine, hl, of_metaMark_append]
  simp only [hentry, metaEntry?_trim]

/-- **What is read of a line**: nothing, metadata, or what its fields and its comment are read
    as. -/
theorem readLine_eq_ok_iff : readLine row l = .ok p ↔
    IsIgnored l ∧ p = {} ∨ (∃ e, IsMetaLine l e ∧ p = ⟨[e], []⟩) ∨
      ∃ fs comment r, IsRowLine l fs comment ∧ row l fs comment = .ok r ∧ p = ⟨[], r.toList⟩ := by
  constructor
  · intro h
    rcases isIgnored_or l with hl | ⟨x, hl⟩ | ⟨fs, comment, hl⟩
    · rw [readLine, of_of_isIgnored hl] at h
      cases h
      exact .inl ⟨hl, rfl⟩
    · rw [readLine, hl, of_metaMark_append] at h
      have htrim := metaEntry?_trim x
      simp only [htrim] at h
      cases he : metaEntry? x with
      | none => rw [he] at h; cases h
      | some e =>
        rw [he] at h
        cases h
        obtain ⟨key, value, rfl, hm, hkey, rfl⟩ := metaEntry?_eq_some_iff.1 he
        exact .inr (.inl ⟨_, ⟨key, value, hl, hm, hkey, rfl⟩, rfl⟩)
    · rw [readLine, of_of_isRowLine hl] at h
      cases hr : row l fs comment with
      | error e => simp [hr] at h
      | ok r =>
        simp only [hr, Except.ok.injEq] at h
        exact .inr (.inr ⟨fs, comment, r, hl, hr, h.symm⟩)
  · rintro (⟨h, rfl⟩ | ⟨e, h, rfl⟩ | ⟨fs, comment, r, h, hr, rfl⟩)
    · rw [readLine, of_of_isIgnored h]
    · exact readLine_of_isMetaLine h
    · rw [readLine, of_of_isRowLine h]
      simp only [hr]

end TableText

end PrimaryEnergy
