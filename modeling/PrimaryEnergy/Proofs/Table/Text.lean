/-
  The text form of tables, read back.

  * `TableText.IsRemark` and `MetaEntry.IsWritable` tell which comments and metadata survive in
    a line, `TableText.IsField` which fields do;
  * `readLine_metaLine` and `of_rowLine`: what is written as a line is found in it;
  * `readWith_eq_ok_iff`: a text is read line by line, and `readWith_joinLines`: a text that is
    put together of lines is read as what these are read as;
  * `isWritable_of_readWith`: all that is read can be written.
-/
import Mathlib.Data.List.Forall2
import PrimaryEnergy.Proofs.Text.Lines
import PrimaryEnergy.Table.Text

namespace PrimaryEnergy

open Text TableText

/-! ## What can be written -/

namespace TableText

/-- A text that can be written at the end of a line. -/
structure IsRemark (s : String) : Prop where
  /-- It has no line breaks. -/
  oneLine : OneLine s.toList
  /-- It has no blanks at its ends. -/
  isTrimmed : IsTrimmed s.toList

/-- A text that can be written as a field. -/
structure IsField (s : String) : Prop where
  /-- It is not empty. -/
  ne_nil : s.toList ≠ []
  /-- It has no blanks and nothing that ends a field. -/
  plain : ∀ c ∈ s.toList, isBlank c = false ∧ c ≠ ',' ∧ c ≠ '#'

end TableText

/-- An entry that can be written as a line of metadata. -/
structure MetaEntry.IsWritable (e : MetaEntry) : Prop where
  /-- The key is not empty. -/
  key_ne_nil : e.key.toList ≠ []
  /-- The key has no colon, which would end it. -/
  key_colon : ':' ∉ e.key.toList
  /-- The key is written as it is. -/
  key_isRemark : IsRemark e.key
  /-- The value is written as it is. -/
  value_isRemark : IsRemark e.value

namespace TableText

theorem isBlank_of_isLineBreak {c : Char} (h : isLineBreak c = true) : isBlank c = true := by
  simp only [isLineBreak, CharRanges.has, List.any_cons, List.any_nil, Bool.or_false,
    Bool.or_eq_true, Bool.and_eq_true, decide_eq_true_eq] at h
  simp only [isBlank, isWhiteSpace, whiteSpaceRanges, CharRanges.has, List.any_cons, List.any_nil,
    Bool.or_false, Bool.or_eq_true, Bool.and_eq_true, decide_eq_true_eq]
  omega

namespace IsField

variable {s : String}

theorem isRemark (h : IsField s) : IsRemark s := by
  refine ⟨fun c hc => Bool.eq_false_iff.2 fun hb => ?_, fun c hc => ?_, fun c hc => ?_⟩
  · exact Bool.eq_false_iff.1 (h.plain c hc).1 (isBlank_of_isLineBreak hb)
  · exact (h.plain c (List.mem_of_mem_head? hc)).1
  · exact (h.plain c (List.mem_of_getLast? hc)).1

/-- A text over an alphabet without blanks and marks. -/
theorem of_alphabet {alphabet : List Char} (hne : s.toList ≠ [])
    (h : ∀ c ∈ s.toList, c ∈ alphabet)
    (ha : ∀ c ∈ alphabet, isBlank c = false ∧ c ≠ ',' ∧ c ≠ '#') : IsField s :=
  ⟨hne, fun c hc => ha c (h c hc)⟩

end IsField

/-! ## Lines of metadata -/

theorem toList_metaLine (e : MetaEntry) :
    (metaLine e).toList = metaMark ++ ' ' :: (e.key.toList ++ ':' :: ' ' :: e.value.toList) := by
  simp [metaLine, metaMark]

theorem oneLine_append {s t : List Char} (hs : OneLine s) (ht : OneLine t) : OneLine (s ++ t) :=
  fun c hc => (List.mem_append.1 hc).elim (hs c) (ht c)

theorem oneLine_cons {s : List Char} {c : Char} (hc : isLineBreak c = false) (hs : OneLine s) :
    OneLine (c :: s) := by
  intro d hd
  rcases List.mem_cons.1 hd with rfl | hd
  · exact hc
  · exact hs d hd

instance (s : List Char) : Decidable (OneLine s) :=
  inferInstanceAs (Decidable (∀ c ∈ s, isLineBreak c = false))

theorem oneLine_metaLine {e : MetaEntry} (h : e.IsWritable) : OneLine (metaLine e).toList := by
  rw [toList_metaLine]
  refine oneLine_append (by decide) (oneLine_cons rfl (oneLine_append ?_ ?_))
  · exact h.key_isRemark.oneLine
  · exact oneLine_cons rfl (oneLine_cons rfl h.value_isRemark.oneLine)

theorem metaEntry_append {key value v : List Char} (hne : key ≠ []) (hk : ':' ∉ key)
    (ht : IsTrimmed key) (hv : trim value = v) :
    metaEntry? (key ++ ':' :: value) = some ⟨String.ofList key, String.ofList v⟩ := by
  unfold metaEntry?
  rw [cut_append_cons hk]
  simp only [trim_eq_self ht, hv]
  rw [if_neg hne]

variable {ρ : Type}

/-- **What is written as a line of metadata is read from it.** -/
theorem readLine_metaLine (row : RowReader ρ) {e : MetaEntry} (h : e.IsWritable) :
    readLine row (metaLine e).toList = .ok ⟨[e], []⟩ := by
  have hne := h.key_ne_nil
  have ht := h.key_isRemark.isTrimmed
  -- the line, and what follows the mark, up to the colon
  have hsplit : (metaLine e).toList =
      (metaMark ++ ' ' :: (e.key.toList ++ [':'])) ++ ' ' :: e.value.toList := by
    rw [toList_metaLine]; simp
  have hmark : IsTrimmed (metaMark ++ ' ' :: (e.key.toList ++ [':'])) := by
    refine isTrimmed_append (by decide) (by decide) (List.cons_ne_nil _ _) fun c hc => ?_
    rw [← List.cons_append, List.getLast?_concat] at hc
    cases hc; decide
  obtain ⟨w, hw, hwv⟩ := exists_trim_append (by simp) hmark (' ' :: e.value.toList)
  rw [trim_blank_cons rfl h.value_isRemark.isTrimmed] at hwv
  have htw := hw ▸ isTrimmed_trim _
  have hbody : IsTrimmed (e.key.toList ++ ':' :: w) := by
    refine isTrimmed_append hne ht.head (List.cons_ne_nil _ _) fun c hc => htw.last c ?_
    have : metaMark ++ ' ' :: (e.key.toList ++ [':']) ++ w =
        (metaMark ++ ' ' :: e.key.toList) ++ ':' :: w := by simp
    rwa [this, List.getLast?_append_of_ne_nil _ (List.cons_ne_nil _ _)]
  have hof : Line.of (trim (metaLine e).toList) = .metadata (e.key.toList ++ ':' :: w) := by
    have hline : trim (metaLine e).toList = metaMark ++ ' ' :: (e.key.toList ++ ':' :: w) := by
      rw [hsplit, hw]; simp
    have hprefix : metaMark.isPrefixOf (metaMark ++ ' ' :: (e.key.toList ++ ':' :: w)) = true :=
      List.isPrefixOf_iff_prefix.2 (List.prefix_append _ _)
    rw [hline, Line.of, if_neg (by simp [metaMark]), if_pos hprefix, List.drop_left,
      trim_blank_cons rfl hbody]
  have hentry : metaEntry? (e.key.toList ++ ':' :: w) = some e := by
    rw [metaEntry_append hne h.key_colon ht hwv, String.ofList_toList, String.ofList_toList]
  simp only [readLine, hof, hentry]

/-! ## Lines of rows -/

theorem mem_joinText {sep : String} {ps : List String} {c : Char}
    (h : c ∈ (joinText sep ps).toList) : c ∈ sep.toList ∨ ∃ p ∈ ps, c ∈ p.toList := by
  induction ps with
  | nil => cases h
  | cons p ps ih =>
    by_cases h0 : ps = []
    · subst h0
      rw [joinText, String.intercalate_singleton] at h
      exact Or.inr ⟨p, List.mem_cons_self, h⟩
    · rw [joinText, String.intercalate_cons_of_ne_nil h0, String.toList_append,
        String.toList_append, List.mem_append, List.mem_append] at h
      rcases h with (h | h) | h
      · exact Or.inr ⟨p, List.mem_cons_self, h⟩
      · exact Or.inl h
      · rcases ih h with h | ⟨q, hq, h⟩
        · exact Or.inl h
        · exact Or.inr ⟨q, List.mem_cons_of_mem _ hq, h⟩

section
variable {ps : List String}

theorem joinText_fields (hne : ps ≠ []) (h : ∀ p ∈ ps, IsField p) :
    (joinText ", " ps).toList ≠ [] ∧ IsTrimmed (joinText ", " ps).toList := by
  induction ps with
  | nil => exact absurd rfl hne
  | cons p ps ih =>
    have hp := h p List.mem_cons_self
    by_cases h0 : ps = []
    · subst h0
      rw [joinText, String.intercalate_singleton]
      exact ⟨hp.ne_nil, hp.isRemark.isTrimmed⟩
    · obtain ⟨hr, ht⟩ := ih h0 fun q hq => h q (List.mem_cons_of_mem _ hq)
      rw [joinText, String.intercalate_cons_of_ne_nil h0, String.toList_append,
        String.toList_append, List.append_assoc]
      refine ⟨by simp [hp.ne_nil], isTrimmed_append hp.ne_nil hp.isRemark.isTrimmed.head
        (by simp) fun c hc => ht.last c ?_⟩
      exact List.getLast?_append_of_ne_nil _ hr ▸ hc

theorem hash_not_mem_joinText (h : ∀ p ∈ ps, IsField p) : '#' ∉ (joinText ", " ps).toList := by
  intro hm
  rcases mem_joinText hm with hm | ⟨p, hp, hm⟩
  · exact absurd hm (by decide)
  · exact ((h p hp).plain _ hm).2.2 rfl

theorem oneLine_joinText (h : ∀ p ∈ ps, IsField p) : OneLine (joinText ", " ps).toList := by
  intro c hc
  rcases mem_joinText hc with hc | ⟨p, hp, hc⟩
  · exact (by decide : OneLine ", ".toList) c hc
  · exact (h p hp).isRemark.oneLine c hc

theorem toList_rowLine (fields : List String) (comment : String) :
    (rowLine fields comment).toList = (joinText ", " fields).toList ++
      if comment = "" then [] else ' ' :: '#' :: ' ' :: comment.toList := by
  rw [rowLine, String.toList_append]
  split_ifs <;> simp

theorem oneLine_rowLine {comment : String} (h : ∀ p ∈ ps, IsField p)
    (hc : OneLine comment.toList) : OneLine (rowLine ps comment).toList := by
  rw [toList_rowLine]
  refine oneLine_append (oneLine_joinText h) ?_
  split_ifs
  · nofun
  · exact oneLine_cons rfl (oneLine_cons rfl (oneLine_cons rfl hc))

/-- **The fields and the comment of a row are found in its line**, the comment without blanks at
    its ends. -/
theorem of_rowLine_trim (hne : ps ≠ []) (h : ∀ p ∈ ps, IsField p) (comment : String) :
    Line.of (trim (rowLine ps comment).toList) =
      .row (ps.map String.toList) (trim comment.toList) := by
  obtain ⟨hF, htF⟩ := joinText_fields hne h
  have hhash := hash_not_mem_joinText h
  have hfields := trim_fields_joinText hne fun p hp =>
    ⟨fun hm => ((h p hp).plain _ hm).2.1 rfl, (h p hp).isRemark.isTrimmed⟩
  obtain ⟨F, hFdef⟩ : ∃ F, F = (joinText ", " ps).toList := ⟨_, rfl⟩
  rw [toList_rowLine]
  rw [← hFdef] at hF htF hhash hfields ⊢
  -- the line as it is cut at the mark of comments
  obtain ⟨r, hr, hparts⟩ : ∃ r, trim (F ++ if comment = "" then [] else
      ' ' :: '#' :: ' ' :: comment.toList) = F ++ r ∧
      trim (cut '#' (F ++ r)).1 = F ∧
        trim ((cut '#' (F ++ r)).2.getD []) = trim comment.toList := by
    split_ifs with h0
    · refine ⟨[], ?_⟩
      rw [List.append_nil, cut_eq_none hhash, h0]
      exact ⟨trim_eq_self htF, trim_eq_self htF, rfl⟩
    · have hspace : '#' ∉ F ++ [' '] := by simpa using hhash
      have htM : IsTrimmed (F ++ [' ', '#']) := isTrimmed_append hF htF.head (by simp) (by decide)
      obtain ⟨w, hw, hwt⟩ := exists_trim_append (by simp) htM (' ' :: comment.toList)
      have hcut : cut '#' (F ++ ' ' :: '#' :: w) = (F ++ [' '], some w) := by
        rw [← cut_append_cons hspace]; simp
      refine ⟨' ' :: '#' :: w, by simpa using hw, ?_, ?_⟩
      · rw [hcut]
        exact trim_append (a := []) nofun htF (by decide)
      · rw [hcut, ← trim_cons (c := ' ') rfl comment.toList, ← hwt]
        rfl
  rw [hr]
  -- the line does not start with a hash
  obtain ⟨c, cs, hcons⟩ := List.exists_cons_of_ne_nil hF
  have hc : c ≠ '#' := by
    rintro rfl
    exact hhash (hcons ▸ List.mem_cons_self)
  have hhead : F ++ r = c :: (cs ++ r) := by rw [hcons]; rfl
  have hmark : metaMark.isPrefixOf (F ++ r) = false := by
    rw [hhead, metaMark, List.isPrefixOf_cons_cons]
    simp [hc.symm]
  rw [Line.of, if_neg (by rw [hhead]; simp), if_neg (by rw [hmark]; simp), if_neg]
  · simp only [hparts, hfields]
  · rw [hhead]
    simpa using hc

theorem of_rowLine {comment : String} (hne : ps ≠ []) (h : ∀ p ∈ ps, IsField p)
    (hc : IsRemark comment) :
    Line.of (trim (rowLine ps comment).toList) = .row (ps.map String.toList) comment.toList := by
  rw [of_rowLine_trim hne h, trim_eq_self hc.isTrimmed]

end

/-! ## A text line by line -/

theorem mapM_eq_ok_iff {α β ε : Type} (f : α → Except ε β) {xs : List α} {ys : List β} :
    xs.mapM f = .ok ys ↔ List.Forall₂ (fun x y => f x = .ok y) xs ys := by
  induction xs generalizing ys with
  | nil => cases ys <;> simp [pure, Except.pure]
  | cons x xs ih =>
    rw [List.mapM_cons]
    cases hx : f x with
    | error e =>
      refine ⟨nofun, ?_⟩
      rintro (_ | ⟨h, -⟩)
      rw [hx] at h; cases h
    | ok y =>
      cases hxs : xs.mapM f with
      | error e =>
        refine ⟨nofun, ?_⟩
        rintro (_ | ⟨-, h⟩)
        rw [ih.2 h] at hxs; cases hxs
      | ok zs =>
        show Except.ok (y :: zs) = .ok ys ↔ _
        constructor
        · rintro ⟨⟩
          exact .cons hx (ih.1 hxs)
        · rintro (_ | ⟨h, ht⟩)
          rw [hx] at h; cases h
          rw [ih.2 ht] at hxs; cases hxs
          rfl

theorem exists_of_mapM_eq_error {α β ε : Type} {f : α → Except ε β} {xs : List α} {e : ε}
    (h : xs.mapM f = .error e) :
    ∃ as a bs, xs = as ++ a :: bs ∧ (∀ x ∈ as, ∃ y, f x = .ok y) ∧ f a = .error e := by
  induction xs with
  | nil => cases h
  | cons x xs ih =>
    rw [List.mapM_cons] at h
    cases hx : f x with
    | error e' =>
      rw [hx] at h
      cases h
      exact ⟨[], x, xs, rfl, nofun, hx⟩
    | ok y =>
      cases hxs : xs.mapM f with
      | ok ys =>
        rw [hx, hxs] at h
        cases h
      | error e' =>
        rw [hx, hxs] at h
        cases h
        obtain ⟨as, a, bs, rfl, has, ha⟩ := ih hxs
        refine ⟨x :: as, a, bs, rfl, fun z hz => ?_, ha⟩
        rcases List.mem_cons.1 hz with rfl | hz
        · exact ⟨y, hx⟩
        · exact has z hz

theorem readWith_eq_ok_iff {row : RowReader ρ} {s : String} {t : Table ρ} :
    readWith row s = .ok t ↔
      ∃ parts, List.Forall₂ (fun l p => readLine row l = .ok p) (splitLines s.toList) parts ∧
        t = Table.concat parts := by
  simp only [← mapM_eq_ok_iff]
  unfold readWith
  cases (splitLines s.toList).mapM (readLine row) with
  | error e => exact ⟨nofun, fun ⟨_, h, _⟩ => by cases h⟩
  | ok parts =>
    constructor
    · rintro ⟨⟩; exact ⟨parts, rfl, rfl⟩
    · rintro ⟨_, ⟨⟩, rfl⟩; rfl

theorem readWith_eq_error {row : RowReader ρ} {s : String} {e : TableFault}
    (h : readWith row s = .error e) :
    ∃ ls l ms, splitLines s.toList = ls ++ l :: ms ∧ (∀ k ∈ ls, ∃ p, readLine row k = .ok p) ∧
      readLine row l = .error e := by
  unfold readWith at h
  cases hs : (splitLines s.toList).mapM (readLine row) with
  | ok parts => rw [hs] at h; cases h
  | error e' =>
    rw [hs] at h
    cases h
    exact exists_of_mapM_eq_error hs

/-! ## A text that is put together -/

/-- The lines of metadata, each with what is read from it. -/
def metaLines (es : List MetaEntry) : List (String × Table ρ) :=
  es.map fun e => (metaLine e, ⟨[e], []⟩)

/-- The lines of rows, each with what is read from it. -/
def rowLines (line : ρ → String) (back : ρ → ρ) (rs : List ρ) : List (String × Table ρ) :=
  rs.map fun r => (line r, ⟨[], [back r]⟩)

section
variable (es : List MetaEntry) (line : ρ → String) (back : ρ → ρ) (rs : List ρ)

@[simp] theorem map_fst_metaLines :
    (metaLines es : List (String × Table ρ)).map (·.1) = es.map metaLine := by
  rw [metaLines, List.map_map]; rfl

@[simp] theorem flatMap_metadata_metaLines :
    (metaLines es : List (String × Table ρ)).flatMap (·.2.metadata) = es := by
  rw [metaLines, List.flatMap_map, List.flatMap_singleton']

@[simp] theorem flatMap_rows_metaLines :
    (metaLines es : List (String × Table ρ)).flatMap (·.2.rows) = [] := by
  rw [metaLines, List.flatMap_map, List.flatMap_eq_nil_iff]
  exact fun _ _ => rfl

@[simp] theorem map_fst_rowLines : (rowLines line back rs).map (·.1) = rs.map line := by
  rw [rowLines, List.map_map]; rfl

@[simp] theorem flatMap_metadata_rowLines :
    (rowLines line back rs).flatMap (·.2.metadata) = [] := by
  rw [rowLines, List.flatMap_map, List.flatMap_eq_nil_iff]
  exact fun _ _ => rfl

@[simp] theorem flatMap_rows_rowLines :
    (rowLines line back rs).flatMap (·.2.rows) = rs.map back := by
  rw [rowLines, List.flatMap_map, List.map_eq_flatMap]

end

theorem readLine_of_mem_metaLines {row : RowReader ρ} {es : List MetaEntry}
    (h : ∀ e ∈ es, e.IsWritable) :
    ∀ l ∈ metaLines es, OneLine l.1.toList ∧ readLine row l.1.toList = .ok l.2 := by
  intro l hl
  obtain ⟨e, he, rfl⟩ := List.mem_map.1 hl
  exact ⟨oneLine_metaLine (h e he), readLine_metaLine row (h e he)⟩

/-- **A text of lines is read as what its lines are read as.** -/
theorem readWith_joinLines {row : RowReader ρ} {ls : List (String × Table ρ)}
    (h : ∀ l ∈ ls, OneLine l.1.toList ∧ readLine row l.1.toList = .ok l.2) :
    readWith row (joinLines (ls.map (·.1))) =
      .ok ⟨ls.flatMap (·.2.metadata), ls.flatMap (·.2.rows)⟩ := by
  by_cases h0 : ls = []
  · -- a text without lines is a line feed, and so has an empty line
    subst h0
    have hlines : splitLines (joinLines []).toList = [[]] := by decide
    exact readWith_eq_ok_iff.2 ⟨[{}], by rw [List.map_nil, hlines]; exact .cons rfl .nil, rfl⟩
  · have hlines : ∀ l ∈ ls.map (·.1), OneLine l.toList := by
      intro l hl
      obtain ⟨p, hp, rfl⟩ := List.mem_map.1 hl
      exact (h p hp).1
    refine readWith_eq_ok_iff.2 ⟨ls.map (·.2), ?_, by simp only [Table.concat, List.flatMap_map]⟩
    rw [splitLines_joinLines (by simpa using h0) hlines, List.map_map,
      List.forall₂_map_left_iff, List.forall₂_map_right_iff, List.forall₂_same]
    exact fun p hp => (h p hp).2

/-! ## All that is read can be written -/

theorem oneLine_of_subset {s t : List Char} (h : OneLine s) (ht : ∀ c ∈ t, c ∈ s) : OneLine t :=
  fun c hc => h c (ht c hc)

theorem mem_of_mem_trim {s : List Char} {c : Char} (h : c ∈ trim s) : c ∈ s := by
  rw [trim, trimBy, List.mem_reverse] at h
  have h := (List.dropWhile_suffix isBlank).subset h
  rw [List.mem_reverse] at h
  exact (List.dropWhile_suffix isBlank).subset h

theorem isRemark_trim {s : List Char} (h : OneLine s) : IsRemark (String.ofList (trim s)) := by
  refine ⟨?_, ?_⟩ <;> rw [String.toList_ofList]
  · exact oneLine_of_subset h fun c => mem_of_mem_trim
  · exact isTrimmed_trim s

theorem oneLine_cut (sep : Char) {s : List Char} (h : OneLine s) :
    OneLine (cut sep s).1 ∧ ∀ r, (cut sep s).2 = some r → OneLine r := by
  rw [cut_append sep s] at h
  refine ⟨fun c hc => h c (List.mem_append_left _ hc), fun r hr c hc => h c ?_⟩
  rw [hr]
  exact List.mem_append_right _ (List.mem_cons_of_mem _ hc)

theorem isWritable_of_metaEntry {body : List Char} {e : MetaEntry} (h : OneLine body)
    (he : metaEntry? body = some e) : e.IsWritable := by
  obtain ⟨hkey, hvalue⟩ := oneLine_cut ':' h
  have hcolon := not_mem_cut ':' body
  unfold metaEntry? at he
  generalize cut ':' body = parts at hkey hvalue hcolon he
  obtain ⟨key, _ | value⟩ := parts
  · cases he
  · simp only at he
    split_ifs at he with h0
    cases he
    refine ⟨?_, ?_, isRemark_trim hkey, isRemark_trim (hvalue value rfl)⟩
    · rwa [String.toList_ofList]
    · rw [String.toList_ofList]
      exact fun hm => hcolon (mem_of_mem_trim hm)

theorem oneLine_of_eq_metadata {line body : List Char} (h : OneLine line)
    (hl : Line.of line = .metadata body) : OneLine body := by
  unfold Line.of at hl
  split_ifs at hl
  cases hl
  exact oneLine_of_subset h fun c hc => List.mem_of_mem_drop (mem_of_mem_trim hc)

theorem isRemark_of_eq_row {line comment : List Char} {fields : List (List Char)}
    (h : OneLine line) (hl : Line.of line = .row fields comment) :
    IsRemark (String.ofList comment) := by
  unfold Line.of at hl
  split_ifs at hl
  cases hl
  refine isRemark_trim ?_
  cases hc : (cut '#' line).2 with
  | none => nofun
  | some r => exact (oneLine_cut _ h).2 r hc

/-- What holds of the rows that are read with comments that can be written. -/
theorem isWritable_of_readLine {row : RowReader ρ} {P : ρ → Prop}
    (hrow : ∀ raw fields comment r, row raw fields comment = .ok (some r) →
      IsRemark (String.ofList comment) → P r)
    {raw : List Char} {p : Table ρ} (hraw : OneLine raw) (h : readLine row raw = .ok p) :
    (∀ e ∈ p.metadata, e.IsWritable) ∧ ∀ r ∈ p.rows, P r := by
  have hline : OneLine (trim raw) := oneLine_of_subset hraw fun c => mem_of_mem_trim
  unfold readLine at h
  cases hl : Line.of (trim raw) with
  | ignored => rw [hl] at h; cases h; exact ⟨nofun, nofun⟩
  | metadata body =>
    simp only [hl] at h
    cases he : metaEntry? body with
    | none => rw [he] at h; cases h
    | some e =>
      rw [he] at h; cases h
      refine ⟨fun e' hm => ?_, nofun⟩
      rw [List.mem_singleton.1 hm]
      exact isWritable_of_metaEntry (oneLine_of_eq_metadata hline hl) he
  | row fields comment =>
    simp only [hl] at h
    cases hr : row raw fields comment with
    | error e => rw [hr] at h; cases h
    | ok r =>
      rw [hr] at h; cases h
      refine ⟨nofun, fun r' hm => hrow raw fields comment r' ?_ (isRemark_of_eq_row hline hl)⟩
      rw [hr, Option.mem_toList.1 hm]

/-- **All that is read can be written.** -/
theorem isWritable_of_readWith {row : RowReader ρ} {P : ρ → Prop}
    (hrow : ∀ raw fields comment r, row raw fields comment = .ok (some r) →
      IsRemark (String.ofList comment) → P r)
    {s : String} {t : Table ρ} (h : readWith row s = .ok t) :
    (∀ e ∈ t.metadata, e.IsWritable) ∧ ∀ r ∈ t.rows, P r := by
  obtain ⟨parts, hparts, rfl⟩ := readWith_eq_ok_iff.1 h
  clear h
  have hall : ∀ p ∈ parts, (∀ e ∈ p.metadata, e.IsWritable) ∧ ∀ r ∈ p.rows, P r := by
    have hlines : ∀ l ∈ splitLines s.toList, OneLine l := fun l => oneLine_of_mem_splitLines
    generalize splitLines s.toList = lines at hparts hlines
    induction hparts with
    | nil => nofun
    | @cons l p ls ps hl _ ih =>
      intro q hq
      rcases List.mem_cons.1 hq with rfl | hq
      · exact isWritable_of_readLine hrow (hlines l List.mem_cons_self) hl
      · exact ih (fun m hm => hlines m (List.mem_cons_of_mem _ hm)) q hq
  refine ⟨fun e he => ?_, fun r hr => ?_⟩
  · obtain ⟨p, hp, he⟩ := List.mem_flatMap.1 he
    exact (hall p hp).1 e he
  · obtain ⟨p, hp, hr⟩ := List.mem_flatMap.1 hr
    exact (hall p hp).2 r hr

end TableText

end PrimaryEnergy
