/-
  The breaks between lines.

  A carriage return and a line feed are one break, also where they meet at the seam of two texts;
  what comes of it is an empty line more or less.  So everything is said of the lines that are not
  empty: these are the runs of characters that break no line (`fullLines_eq_filter_splitOnP`).

  * `fullLines_append`: the lines of two texts with a break between them;
  * `SameButBreaks.fullLines_eq`: texts that only differ in their breaks have the same lines.
-/
import PrimaryEnergy.Proofs.Text.Lines

namespace PrimaryEnergy.Text

/-! ## Lines that are not empty -/

/-- The lines that are not empty. -/
def fullLines (s : List Char) : List (List Char) := (splitLines s).filter (· ≠ [])

/-- Lists of lines that are the same but for empty lines after the first line.  No line counts
    as an empty one. -/
structure SameFromFirst (ls ms : List (List Char)) : Prop where
  first : ls.headD [] = ms.headD []
  rest : ls.tail.filter (· ≠ []) = ms.tail.filter (· ≠ [])

theorem SameFromFirst.filter_eq {ls ms : List (List Char)} (h : SameFromFirst ls ms) :
    ls.filter (· ≠ []) = ms.filter (· ≠ []) := by
  have hcons (l : List (List Char)) :
      l.filter (· ≠ []) = (l.headD [] :: l.tail).filter (· ≠ []) := by
    cases l <;> simp
  rw [hcons ls, hcons ms, List.filter_cons, List.filter_cons, h.first, h.rest]

theorem splitOnP_cons_break {c : Char} (hc : isLineBreak c = true) (s : List Char) :
    (c :: s).splitOnP isLineBreak = [] :: s.splitOnP isLineBreak := by
  rw [List.splitOnP_cons_eq_if_modifyHead, if_pos hc]

theorem sameFromFirst_splitOnP (s : List Char) :
    SameFromFirst (splitLines s) (s.splitOnP isLineBreak) := by
  induction s using splitLines.induct with
  | case1 => exact ⟨rfl, rfl⟩
  | case2 r ih =>
    rw [splitLines, splitOnP_cons_break (by decide), splitOnP_cons_break (by decide)]
    exact ⟨rfl, by simpa using ih.filter_eq⟩
  | case3 c r hr hc ih =>
    rw [splitLines, if_pos hc, splitOnP_cons_break hc]
    · exact ⟨rfl, ih.filter_eq⟩
    · exact hr
  | case4 c r hr hc hs ih =>
    obtain ⟨m, ms, hm⟩ := List.exists_cons_of_ne_nil (List.splitOnP_ne_nil isLineBreak r)
    rw [splitLines, if_neg hc, hs, List.splitOnP_cons_eq_if_modifyHead, if_neg hc, hm]
    · rw [hs, hm] at ih
      obtain ⟨hfirst, hrest⟩ := ih
      obtain rfl : [] = m := hfirst
      exact ⟨rfl, hrest⟩
    · exact hr
  | case5 c r hr hc l ls hs ih =>
    obtain ⟨m, ms, hm⟩ := List.exists_cons_of_ne_nil (List.splitOnP_ne_nil isLineBreak r)
    rw [splitLines, if_neg hc, hs, List.splitOnP_cons_eq_if_modifyHead, if_neg hc, hm]
    · rw [hs, hm] at ih
      obtain ⟨hfirst, hrest⟩ := ih
      obtain rfl : l = m := hfirst
      exact ⟨rfl, hrest⟩
    · exact hr

theorem fullLines_eq_filter_splitOnP (s : List Char) :
    fullLines s = (s.splitOnP isLineBreak).filter (· ≠ []) :=
  (sameFromFirst_splitOnP s).filter_eq

/-! ## Breaks -/

/-- The breaks between lines. -/
def lineBreaks : List String :=
  ["\n", "\r\n", "\r", "\x0b", "\x0c", "\x1c", "\x1d", "\x1e", "\u0085", "\u2028", "\u2029"]

variable {s t : List Char} {b : String}

theorem isLineBreak_of_mem_lineBreaks (h : b ∈ lineBreaks) :
    ∃ c r, b.toList = c :: r ∧ ∀ d ∈ c :: r, isLineBreak d = true := by
  have hall : ∀ b ∈ lineBreaks, b.toList ≠ [] ∧ ∀ d ∈ b.toList, isLineBreak d = true := by decide
  obtain ⟨hne, hbreak⟩ := hall b h
  obtain ⟨c, r, hcr⟩ := List.exists_cons_of_ne_nil hne
  exact ⟨c, r, hcr, hcr ▸ hbreak⟩

/-- Breaks at the start of a text only make empty lines. -/
theorem filter_splitOnP_append {r : List Char} (h : ∀ d ∈ r, isLineBreak d = true)
    (t : List Char) :
    ((r ++ t).splitOnP isLineBreak).filter (· ≠ []) =
      (t.splitOnP isLineBreak).filter (· ≠ []) := by
  induction r with
  | nil => rfl
  | cons c r ih =>
    have hc := h c List.mem_cons_self
    rw [List.cons_append, splitOnP_cons_break hc]
    exact ih fun d hd => h d (List.mem_cons_of_mem _ hd)

/-- **The lines of two texts with a break between them** are the lines of one, then those of the
    other. -/
theorem fullLines_append (hb : b ∈ lineBreaks) (s t : List Char) :
    fullLines (s ++ b.toList ++ t) = fullLines s ++ fullLines t := by
  obtain ⟨c, r, hcr, hbreak⟩ := isLineBreak_of_mem_lineBreaks hb
  have hr : ∀ d ∈ r, isLineBreak d = true := fun d hd => hbreak d (List.mem_cons_of_mem _ hd)
  simp only [fullLines_eq_filter_splitOnP]
  rw [hcr, List.append_assoc, List.cons_append,
    List.splitOnP_append_cons s (r ++ t) (hbreak c List.mem_cons_self), List.filter_append,
    filter_splitOnP_append hr]

/-- Texts that only differ in how their lines are broken. -/
inductive SameButBreaks : List Char → List Char → Prop
  | nil : SameButBreaks [] []
  | char {c : Char} {s t : List Char} (hc : isLineBreak c = false) (h : SameButBreaks s t) :
    SameButBreaks (c :: s) (c :: t)
  | newline {b c : String} {s t : List Char} (hb : b ∈ lineBreaks) (hc : c ∈ lineBreaks)
    (h : SameButBreaks s t) : SameButBreaks (b.toList ++ s) (c.toList ++ t)

/-- A line in front of both texts. -/
theorem SameButBreaks.append_line {l : List Char} (hl : OneLine l) (h : SameButBreaks s t) :
    SameButBreaks (l ++ s) (l ++ t) := by
  induction l with
  | nil => exact h
  | cons c l ih =>
    exact .char (hl c List.mem_cons_self) (ih fun d hd => hl d (List.mem_cons_of_mem _ hd))

/-- Texts that only differ in their breaks have the same lines. -/
theorem SameButBreaks.fullLines_eq (h : SameButBreaks s t) : fullLines s = fullLines t := by
  -- a line is a run of characters, so those in front of a break are kept
  have hrun (r : List Char) : fullLines (r ++ s) = fullLines (r ++ t) := by
    induction h generalizing r with
    | nil => rfl
    | @char c s t hc _ ih =>
      have h := ih (r ++ [c])
      rwa [List.append_assoc, List.append_assoc] at h
    | @newline b c s t hb hc _ ih =>
      rw [← List.append_assoc, ← List.append_assoc, fullLines_append hb, fullLines_append hc]
      exact congrArg (fullLines r ++ ·) (ih [])
  exact hrun []

end PrimaryEnergy.Text
