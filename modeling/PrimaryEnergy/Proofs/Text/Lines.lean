/-
  Blanks, fields and lines.

  * `IsTrimmed` texts have no blanks at their ends: trimming gives one (`isTrimmed_trim`) and
    takes blanks around one away (`trim_append`);
  * a text in pieces is cut at the separator between them (`cut_eq_some_iff`, `fields_eq_iff`,
    `fields_eq_pair_iff`), and blanks around it are blanks around pieces (`map_trim_fields_trim`);
  * `splitLines_joinLines`: lines that are put together are found again.
-/
import Mathlib.Data.List.Basic
import Mathlib.Data.List.TakeWhile
import PrimaryEnergy.Text.Lines

namespace PrimaryEnergy.Text

/-! ## Blanks -/

/-- A text without blanks at its ends. -/
structure IsTrimmed (s : List Char) : Prop where
  /-- It does not start with a blank. -/
  head : ∀ c ∈ s.head?, isBlank c = false
  /-- It does not end with a blank. -/
  last : ∀ c ∈ s.getLast?, isBlank c = false

theorem trim_eq_self {s : List Char} (h : IsTrimmed s) : trim s = s :=
  trimBy_eq_self h.head h.last

theorem head?_dropWhile {p : Char → Bool} {s : List Char} :
    ∀ c ∈ (s.dropWhile p).head?, p c = false := by
  induction s with
  | nil => nofun
  | cons a s ih =>
    intro c hc
    rw [List.dropWhile_cons] at hc
    split_ifs at hc with ha
    · exact ih c hc
    · rw [List.head?_cons, Option.mem_some_iff] at hc
      exact hc ▸ Bool.eq_false_iff.2 ha

theorem isTrimmed_trim (s : List Char) : IsTrimmed (trim s) := by
  refine ⟨fun c hc => ?_, fun c hc => ?_⟩
  · -- what is dropped at the end leaves the head, if anything is left
    obtain ⟨r, hr⟩ := List.dropWhile_suffix isBlank (l := (s.dropWhile isBlank).reverse)
    have hs : s.dropWhile isBlank = trim s ++ r.reverse := by
      rw [← List.reverse_reverse (s.dropWhile isBlank), ← hr, List.reverse_append]; rfl
    refine head?_dropWhile c (s := s) ?_
    rw [hs, List.head?_append, Option.mem_def.1 hc]; rfl
  · rw [trim, trimBy, List.getLast?_reverse] at hc
    exact head?_dropWhile c hc

theorem isTrimmed_iff {s : List Char} : IsTrimmed s ↔ trim s = s :=
  ⟨trim_eq_self, fun h => h ▸ isTrimmed_trim s⟩

theorem dropWhile_append_of_head {p : Char → Bool} {s t : List Char} (hs : s ≠ [])
    (h : ∀ c ∈ s.head?, p c = false) : (s ++ t).dropWhile p = s ++ t := by
  obtain ⟨c, r, rfl⟩ := List.exists_cons_of_ne_nil hs
  rw [List.cons_append, List.dropWhile_cons_of_neg]
  rw [h c rfl]
  exact Bool.false_ne_true

/-- Blanks around a text are dropped. -/
theorem trim_append {a s b : List Char} (ha : ∀ c ∈ a, isBlank c = true) (hs : IsTrimmed s)
    (hb : ∀ c ∈ b, isBlank c = true) : trim (a ++ s ++ b) = s := by
  rw [trim, trimBy, List.append_assoc, List.dropWhile_append_of_pos ha]
  by_cases h0 : s = []
  · subst h0
    rw [List.nil_append, List.dropWhile_eq_nil_iff.2 hb]; rfl
  · have hb' : ∀ c ∈ b.reverse, isBlank c = true := fun c hc => hb c (List.mem_reverse.1 hc)
    have h0' : s.reverse ≠ [] := fun h => h0 (List.reverse_eq_nil_iff.1 h)
    have hlast : ∀ c ∈ s.reverse.head?, isBlank c = false := by
      rw [List.head?_reverse]; exact hs.last
    have hdrop := dropWhile_append_of_head (t := []) h0' hlast
    rw [dropWhile_append_of_head h0 hs.head, List.reverse_append,
      List.dropWhile_append_of_pos hb']
    rw [List.append_nil] at hdrop
    rw [hdrop, List.reverse_reverse]

theorem trim_cons {c : Char} (hc : isBlank c = true) (s : List Char) : trim (c :: s) = trim s := by
  rw [trim, trimBy, List.dropWhile_cons_of_pos hc]
  rfl

theorem trim_blank_cons {s : List Char} {c : Char} (hc : isBlank c = true) (hs : IsTrimmed s) :
    trim (c :: s) = s := by
  rw [trim_cons hc, trim_eq_self hs]

theorem isTrimmed_append {s t : List Char} (hs : s ≠ []) (hh : ∀ c ∈ s.head?, isBlank c = false)
    (ht : t ≠ []) (hl : ∀ c ∈ t.getLast?, isBlank c = false) : IsTrimmed (s ++ t) := by
  refine ⟨fun c hc => hh c ?_, fun c hc => hl c ?_⟩
  · rwa [List.head?_append_of_ne_nil _ hs] at hc
  · rwa [List.getLast?_append_of_ne_nil _ ht] at hc

theorem exists_blanks (s : List Char) :
    ∃ a b, (∀ c ∈ a, isBlank c = true) ∧ (∀ c ∈ b, isBlank c = true) ∧ s = a ++ trim s ++ b := by
  have hblank (l : List Char) : ∀ c ∈ l.takeWhile isBlank, isBlank c = true :=
    fun c hc => List.mem_takeWhile_imp hc
  refine ⟨s.takeWhile isBlank, ((s.dropWhile isBlank).reverse.takeWhile isBlank).reverse,
    hblank s, fun c hc => hblank _ c (List.mem_reverse.1 hc), ?_⟩
  rw [trim, trimBy, List.append_assoc, ← List.reverse_append, List.takeWhile_append_dropWhile,
    List.reverse_reverse, List.takeWhile_append_dropWhile]

/-- Blanks around a text do not count. -/
theorem trim_append_blanks {a s b : List Char} (ha : ∀ c ∈ a, isBlank c = true)
    (hb : ∀ c ∈ b, isBlank c = true) : trim (a ++ s ++ b) = trim s := by
  obtain ⟨a', b', ha', hb', hs⟩ := exists_blanks s
  have hsplit : a ++ s ++ b = (a ++ a') ++ trim s ++ (b' ++ b) := by
    conv_lhs => rw [hs]
    simp only [List.append_assoc]
  rw [hsplit]
  refine trim_append ?_ (isTrimmed_trim s) ?_
  · exact fun c hc => (List.mem_append.1 hc).elim (ha c) (ha' c)
  · exact fun c hc => (List.mem_append.1 hc).elim (hb' c) (hb c)

theorem trim_append_right {b : List Char} (hb : ∀ c ∈ b, isBlank c = true) (s : List Char) :
    trim (s ++ b) = trim s :=
  trim_append_blanks (a := []) nofun hb

theorem trim_append_left {a : List Char} (ha : ∀ c ∈ a, isBlank c = true) (s : List Char) :
    trim (a ++ s) = trim s := by
  simpa using trim_append_blanks (s := s) (b := []) ha nofun

/-- Of what follows a text without blanks at its ends, only the blanks at the end are dropped. -/
theorem exists_trim_append {s : List Char} (hs : s ≠ []) (hst : IsTrimmed s) (t : List Char) :
    ∃ w, trim (s ++ t) = s ++ w ∧ trim w = trim t := by
  obtain ⟨a, b, ha, hb, hab⟩ := exists_blanks t
  by_cases h0 : trim t = []
  · refine ⟨[], ?_, by rw [h0]; rfl⟩
    rw [h0, List.append_nil] at hab
    rw [hab, List.append_nil]
    refine trim_append (a := []) nofun hst fun c hc => ?_
    exact (List.mem_append.1 hc).elim (ha c) (hb c)
  · refine ⟨a ++ trim t, ?_, ?_⟩
    · have ht : IsTrimmed (s ++ (a ++ trim t)) := by
        have hne : a ++ trim t ≠ [] := fun h => h0 (List.append_eq_nil_iff.1 h).2
        refine isTrimmed_append hs hst.head hne fun c hc => ?_
        rw [List.getLast?_append_of_ne_nil _ h0] at hc
        exact (isTrimmed_trim t).last c hc
      have h := trim_append (a := []) nofun ht hb
      rwa [List.nil_append, List.append_assoc, ← hab] at h
    · have h := trim_append (b := []) ha (isTrimmed_trim t) nofun
      rwa [List.append_nil] at h

/-! ## Fields -/

section
variable {sep : Char} {s : List Char}

theorem fields_eq_singleton (h : sep ∉ s) : fields sep s = [s] := by
  induction s with
  | nil => rfl
  | cons c r ih =>
    have hc : c ≠ sep := (List.ne_of_not_mem_cons h).symm
    rw [fields, if_neg hc, ih (List.not_mem_of_not_mem_cons h)]

theorem fields_append (h : sep ∉ s) (t : List Char) :
    fields sep (s ++ sep :: t) = s :: fields sep t := by
  induction s with
  | nil => rw [List.nil_append, fields, if_pos rfl]
  | cons c r ih =>
    have hc : c ≠ sep := (List.ne_of_not_mem_cons h).symm
    rw [List.cons_append, fields, if_neg hc, ih (List.not_mem_of_not_mem_cons h)]

theorem cut_eq_none (h : sep ∉ s) : cut sep s = (s, none) := by
  induction s with
  | nil => rfl
  | cons c r ih =>
    have hc : c ≠ sep := (List.ne_of_not_mem_cons h).symm
    rw [cut, if_neg hc, ih (List.not_mem_of_not_mem_cons h)]

theorem cut_append_cons (h : sep ∉ s) (t : List Char) : cut sep (s ++ sep :: t) = (s, some t) := by
  induction s with
  | nil => rw [List.nil_append, cut, if_pos rfl]
  | cons c r ih =>
    have hc : c ≠ sep := (List.ne_of_not_mem_cons h).symm
    rw [List.cons_append, cut, if_neg hc, ih (List.not_mem_of_not_mem_cons h)]

theorem not_mem_cut (sep : Char) (s : List Char) : sep ∉ (cut sep s).1 := by
  induction s with
  | nil => nofun
  | cons c r ih =>
    rw [cut]
    split_ifs with hc
    · nofun
    · rw [List.mem_cons, not_or]
      exact ⟨Ne.symm hc, ih⟩

/-- A text is one field, or its first field ends at the first separator. -/
theorem fields_cases (sep : Char) (s : List Char) :
    (sep ∉ s ∧ fields sep s = [s]) ∨
      ∃ a t, s = a ++ sep :: t ∧ sep ∉ a ∧ fields sep s = a :: fields sep t := by
  by_cases h : sep ∈ s
  · obtain ⟨a, t, rfl, ha⟩ := List.eq_append_cons_of_mem h
    exact Or.inr ⟨a, t, rfl, ha, fields_append ha t⟩
  · exact Or.inl ⟨h, fields_eq_singleton h⟩

theorem fields_eq_singleton_iff {a : List Char} : fields sep s = [a] ↔ s = a ∧ sep ∉ a := by
  constructor
  · intro h
    rcases fields_cases sep s with ⟨hs, hf⟩ | ⟨b, t, -, -, hf⟩ <;> rw [hf] at h
    · cases h
      exact ⟨rfl, hs⟩
    · exact absurd (List.cons.inj h).2 (fields_ne_nil sep t)
  · rintro ⟨rfl, hs⟩
    exact fields_eq_singleton hs

/-- A text has two fields if it has one separator. -/
theorem fields_eq_pair_iff {a b : List Char} :
    fields sep s = [a, b] ↔ s = a ++ sep :: b ∧ sep ∉ a ∧ sep ∉ b := by
  constructor
  · intro h
    rcases fields_cases sep s with ⟨-, hf⟩ | ⟨c, t, hs, hc, hf⟩ <;> rw [hf] at h
    · cases h
    · obtain ⟨rfl, ht⟩ := List.cons.inj h
      obtain ⟨rfl, hb⟩ := fields_eq_singleton_iff.1 ht
      exact ⟨hs, hc, hb⟩
  · rintro ⟨rfl, ha, hb⟩
    rw [fields_append ha, fields_eq_singleton hb]

theorem cut_eq_none_iff {a : List Char} : cut sep s = (a, none) ↔ s = a ∧ sep ∉ a := by
  constructor
  · intro h
    have hs := cut_append sep s
    have hm := not_mem_cut sep s
    rw [h] at hs hm
    exact ⟨by simpa using hs, hm⟩
  · rintro ⟨rfl, hm⟩
    exact cut_eq_none hm

theorem cut_eq_some_iff {a r : List Char} :
    cut sep s = (a, some r) ↔ s = a ++ sep :: r ∧ sep ∉ a := by
  constructor
  · intro h
    have hs := cut_append sep s
    have hm := not_mem_cut sep s
    rw [h] at hs hm
    exact ⟨hs, hm⟩
  · rintro ⟨rfl, hm⟩
    exact cut_append_cons hm r

theorem fields_eq_splitOn (sep : Char) (s : List Char) : fields sep s = s.splitOn sep := by
  induction s with
  | nil => rfl
  | cons c r ih =>
    rw [fields, List.splitOn_cons_eq_if_modifyHead, ih]
    obtain ⟨f, fs, hf⟩ := List.exists_cons_of_ne_nil (List.splitOn_ne_nil sep r)
    rw [hf]
    by_cases hc : c = sep <;> simp [hc]

theorem not_mem_of_mem_fields {p : List Char} (h : p ∈ fields sep s) : sep ∉ p := by
  induction s generalizing p with
  | nil =>
    rw [List.mem_singleton.1 h]
    exact List.not_mem_nil
  | cons c r ih =>
    obtain ⟨f, fs, hf⟩ := List.exists_cons_of_ne_nil (fields_ne_nil sep r)
    rw [hf] at ih
    rw [fields, hf] at h
    split_ifs at h with hc
    · rcases List.mem_cons.1 h with rfl | h
      · exact List.not_mem_nil
      · exact ih h
    · rcases List.mem_cons.1 h with rfl | h
      · rw [List.mem_cons, not_or]
        exact ⟨Ne.symm hc, ih List.mem_cons_self⟩
      · exact ih (List.mem_cons_of_mem _ h)

/-- **The pieces of a text** make it up, with the separator between them and not within. -/
theorem fields_eq_iff {ps : List (List Char)} :
    fields sep s = ps ↔ ps ≠ [] ∧ s = [sep].intercalate ps ∧ ∀ p ∈ ps, sep ∉ p := by
  constructor
  · rintro rfl
    refine ⟨fields_ne_nil sep s, ?_, fun p => not_mem_of_mem_fields⟩
    rw [fields_eq_splitOn, List.intercalate_splitOn]
  · rintro ⟨hne, rfl, hsep⟩
    rw [fields_eq_splitOn, List.splitOn_intercalate sep hsep hne]

/-- Blanks around a text are blanks around its first and its last piece. -/
theorem map_trim_fields_append (hsep : isBlank sep = false) {a b : List Char}
    (ha : ∀ c ∈ a, isBlank c = true) (hb : ∀ c ∈ b, isBlank c = true) (s : List Char) :
    (fields sep (a ++ s ++ b)).map trim = (fields sep s).map trim := by
  have hmem {x : List Char} (hx : ∀ c ∈ x, isBlank c = true) : sep ∉ x := fun hm =>
    Bool.false_ne_true (hsep.symm.trans (hx sep hm))
  -- the induction takes off one piece after the other; the blanks in front go with the first
  induction hn : s.length using Nat.strong_induction_on generalizing s a with
  | _ n ih =>
    subst hn
    rcases fields_cases sep s with ⟨hs, hf⟩ | ⟨f, t, rfl, hm, hf⟩
    · have hs' : sep ∉ a ++ s ++ b := by
        simp only [List.mem_append, not_or]
        exact ⟨⟨hmem ha, hs⟩, hmem hb⟩
      rw [hf, fields_eq_singleton hs', List.map_singleton, List.map_singleton,
        trim_append_blanks ha hb]
    · have hm' : sep ∉ a ++ f := by
        rw [List.mem_append, not_or]
        exact ⟨hmem ha, hm⟩
      have hsplit : a ++ (f ++ sep :: t) ++ b = (a ++ f) ++ sep :: (t ++ b) := by simp
      have ht := ih t.length (by simp; omega) (a := []) nofun t rfl
      rw [List.nil_append] at ht
      rw [hf, hsplit, fields_append hm', List.map_cons, List.map_cons, trim_append_left ha, ht]

theorem map_trim_fields_trim (hsep : isBlank sep = false) (s : List Char) :
    (fields sep (trim s)).map trim = (fields sep s).map trim := by
  obtain ⟨a, b, ha, hb, hs⟩ := exists_blanks s
  conv_rhs => rw [hs]
  exact (map_trim_fields_append hsep ha hb (trim s)).symm

end

/-- Pieces with commas and spaces between them are found again. -/
theorem trim_fields_joinText {ps : List String} (hne : ps ≠ [])
    (h : ∀ p ∈ ps, ',' ∉ p.toList ∧ IsTrimmed p.toList) :
    (fields ',' (joinText ", " ps).toList).map trim = ps.map String.toList := by
  -- every piece but the first has a space in front
  have hgo (b : List Char) (hb : ∀ c ∈ b, isBlank c = true ∧ c ≠ ',') :
      (fields ',' (b ++ (joinText ", " ps).toList)).map trim = ps.map String.toList := by
    induction ps generalizing b with
    | nil => exact absurd rfl hne
    | cons p ps ih =>
      obtain ⟨hp, ht⟩ := h p List.mem_cons_self
      have hbp : ',' ∉ b ++ p.toList := by
        rw [List.mem_append, not_or]
        exact ⟨fun hc => (hb _ hc).2 rfl, hp⟩
      have htrim : trim (b ++ p.toList) = p.toList := by
        have := trim_append (b := []) (fun c hc => (hb c hc).1) ht nofun
        rwa [List.append_nil] at this
      cases ps with
      | nil =>
        rw [joinText, String.intercalate_singleton, fields_eq_singleton hbp, List.map_singleton,
          htrim]
        rfl
      | cons q qs =>
        have htail := ih (List.cons_ne_nil q qs) (fun r hr => h r (List.mem_cons_of_mem _ hr)) [' ']
          (by decide)
        have hsplit : b ++ (joinText ", " (p :: q :: qs)).toList =
            (b ++ p.toList) ++ ',' :: ([' '] ++ (joinText ", " (q :: qs)).toList) := by
          rw [joinText, String.intercalate_cons_cons, String.toList_append, String.toList_append]
          simp [joinText]
        rw [hsplit, fields_append hbp, List.map_cons, htrim, htail]
        rfl
  exact hgo [] nofun

/-! ## Lines -/

/-- A text without line breaks. -/
def OneLine (s : List Char) : Prop := ∀ c ∈ s, isLineBreak c = false

theorem splitLines_append {s : List Char} (h : OneLine s) (t : List Char) :
    splitLines (s ++ '\n' :: t) = s :: splitLines t := by
  induction s with
  | nil => rw [List.nil_append, splitLines, if_pos (by decide)]; nofun
  | cons c r ih =>
    have hc : isLineBreak c = false := h c List.mem_cons_self
    have hr : c ≠ '\r' := by rintro rfl; exact absurd hc (by decide)
    rw [List.cons_append, splitLines, hc, ih fun d hd => h d (List.mem_cons_of_mem _ hd)]
    · rfl
    · exact fun _ heq => absurd heq hr

theorem joinLines_cons (l : String) {ls : List String} (h : ls ≠ []) :
    (joinLines (l :: ls)).toList = l.toList ++ '\n' :: (joinLines ls).toList := by
  obtain ⟨m, ms, rfl⟩ := List.exists_cons_of_ne_nil h
  rw [joinLines, joinLines, String.intercalate_cons_cons]
  simp

/-- **Lines that are put together are found again.** -/
theorem splitLines_joinLines {ls : List String} (hne : ls ≠ []) (h : ∀ l ∈ ls, OneLine l.toList) :
    splitLines (joinLines ls).toList = ls.map String.toList := by
  induction ls with
  | nil => exact absurd rfl hne
  | cons l ls ih =>
    have hl := h l List.mem_cons_self
    by_cases h0 : ls = []
    · subst h0
      have : (joinLines [l]).toList = l.toList ++ ['\n'] := by simp [joinLines]
      rw [this, splitLines_append hl]
      rfl
    · rw [joinLines_cons l h0, splitLines_append hl,
        ih h0 fun m hm => h m (List.mem_cons_of_mem _ hm)]
      rfl

/-- A text of lines that are put together has no other breaks than line feeds. -/
theorem isLineBreak_of_mem_joinLines {ls : List String} (h : ∀ l ∈ ls, OneLine l.toList) :
    ∀ c ∈ (joinLines ls).toList, isLineBreak c = true → c = '\n' := by
  intro c hc hb
  induction ls with
  | nil => exact List.mem_singleton.1 hc
  | cons l ls ih =>
    have hl : c ∉ l.toList := fun hm => absurd hb (by rw [h l List.mem_cons_self c hm]; simp)
    by_cases h0 : ls = []
    · subst h0
      rw [joinLines, String.intercalate_singleton, String.toList_append] at hc
      rcases List.mem_append.1 hc with hc | hc
      · exact absurd hc hl
      · exact List.mem_singleton.1 hc
    · rw [joinLines_cons l h0] at hc
      rcases List.mem_append.1 hc with hc | hc
      · exact absurd hc hl
      · rcases List.mem_cons.1 hc with hc | hc
        · exact hc
        · exact ih (fun m hm => h m (List.mem_cons_of_mem _ hm)) hc

theorem plainBreaks_eq_self {s : List Char} (h : '\r' ∉ s) : plainBreaks s = s := by
  induction s with
  | nil => rfl
  | cons c r ih =>
    have hc : c ≠ '\r' := (List.ne_of_not_mem_cons h).symm
    rw [plainBreaks, if_neg hc, ih (List.not_mem_of_not_mem_cons h)]
    exact fun _ heq => absurd heq hc

/-- Lines that are put together have no other breaks than line feeds. -/
theorem plainBreaks_joinLines {ls : List String} (h : ∀ l ∈ ls, OneLine l.toList) :
    plainBreaks (joinLines ls).toList = (joinLines ls).toList := by
  refine plainBreaks_eq_self fun hm => ?_
  exact absurd (isLineBreak_of_mem_joinLines h _ hm (by decide)) (by decide)

/-- The lines of a text have no breaks. -/
theorem oneLine_of_mem_splitLines {s l : List Char} (h : l ∈ splitLines s) : OneLine l := by
  induction s using splitLines.induct generalizing l with
  | case1 => cases h
  | case2 r ih =>
    rcases List.mem_cons.1 h with rfl | h
    · nofun
    · exact ih h
  | case3 c r hr hc ih =>
    rw [splitLines, if_pos hc] at h
    · rcases List.mem_cons.1 h with rfl | h
      · nofun
      · exact ih h
    · exact hr
  | case4 c r hr hc hs ih =>
    rw [splitLines, if_neg hc, hs] at h
    · rw [List.mem_singleton.1 h]
      intro d hd
      rw [List.mem_singleton.1 hd]
      exact Bool.eq_false_iff.2 hc
    · exact hr
  | case5 c r hr hc m ms hs ih =>
    rw [splitLines, if_neg hc, hs] at h
    · rw [hs] at ih
      rcases List.mem_cons.1 h with rfl | h
      · intro d hd
        rcases List.mem_cons.1 hd with rfl | hd
        · exact Bool.eq_false_iff.2 hc
        · exact ih List.mem_cons_self d hd
      · exact ih (List.mem_cons_of_mem _ h)
    · exact hr

end PrimaryEnergy.Text
