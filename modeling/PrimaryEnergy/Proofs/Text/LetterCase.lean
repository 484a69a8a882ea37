/-
  Upper case twice.

  No character of an upper case has another upper case itself, and none is blank.

  The tables of upper case are seen as spans of code points: those that have an upper case,
  and those that belong to one.  That the former and the latter are apart is checked span by
  span; most of those that overlap are one half of it each (`Span.apart`).

  * `upperChar_of_mem` and `isBlank_of_mem_upperChar`: the characters of an upper case;
  * `upperText_trimText_idem`: a text in capitals without blanks around it stays what it is.
-/
import Mathlib.Data.List.Basic
import PrimaryEnergy.Proofs.Text.Lines
import PrimaryEnergy.Text.LetterCase

namespace PrimaryEnergy.Text

/-! ## Spans -/

/-- Code points from a first one to a last one, in steps. -/
structure Span where
  /-- The first one. -/
  first : Nat
  /-- The last one. -/
  last : Nat
  /-- How far it is from one to the next. -/
  step : Nat

namespace Span

/-- Whether a code point belongs to the span. -/
def has (s : Span) (n : Nat) : Bool :=
  s.first ≤ n && n ≤ s.last && (n - s.first) % s.step == 0

/-- A single code point. -/
def single (n : Nat) : Span := ⟨n, n, 1⟩

theorem has_single {n m : Nat} : (single n).has m = true ↔ m = n := by
  have h : (single n).has m = (decide (n ≤ m) && decide (m ≤ n) && (m - n) % 1 == 0) := rfl
  simp only [h, Nat.mod_one, Bool.and_eq_true, decide_eq_true_eq, beq_self_eq_true, and_true]
  omega

/-- Whether all code points are even, or all are odd. -/
def keepsParity (s : Span) : Bool := s.step == 2 || s.first == s.last

theorem mod_two_of_has {s : Span} {n : Nat} (hs : s.keepsParity = true) (h : s.has n = true) :
    n % 2 = s.first % 2 := by
  simp only [keepsParity, has, Bool.or_eq_true, Bool.and_eq_true, beq_iff_eq,
    decide_eq_true_eq] at hs h
  obtain ⟨⟨hfirst, hlast⟩, hstep⟩ := h
  rcases hs with hs | hs
  · rw [hs] at hstep
    omega
  · omega

/-- Whether two spans are found to have nothing in common: one of them ends before the other
    starts, or one is even and the other odd. -/
def apart (s r : Span) : Bool :=
  Nat.blt s.last r.first || Nat.blt r.last s.first ||
    (s.keepsParity && r.keepsParity && s.first % 2 != r.first % 2)

theorem has_eq_false_of_apart {s r : Span} {n : Nat} (h : s.apart r = true) (hs : s.has n = true) :
    r.has n = false := by
  rw [Bool.eq_false_iff]
  intro hr
  have hbounds (q : Span) (hq : q.has n = true) : q.first ≤ n ∧ n ≤ q.last := by
    simp only [has, Bool.and_eq_true, decide_eq_true_eq] at hq
    exact hq.1
  have hsn := hbounds s hs
  have hrn := hbounds r hr
  simp only [apart, Bool.or_eq_true, Nat.blt_eq, Bool.and_eq_true, bne_iff_ne] at h
  rcases h with (h | h) | ⟨⟨hps, hpr⟩, hne⟩
  · omega
  · omega
  · exact hne (by rw [← mod_two_of_has hps hs, ← mod_two_of_has hpr hr])

end Span

/-! ## The tables -/

/-- The characters with another upper case. -/
def lowerSpans : List Span :=
  (upperSequences.map fun e => Span.single e.1) ++
    upperRuns.map fun (lo, hi, step, _) => ⟨lo, hi, step⟩

/-- The characters that an upper case is made of. -/
def upperSpans : List Span :=
  (upperSequences.flatMap fun e => e.2.map Span.single) ++
    upperRuns.map fun (lo, hi, step, shift) => ⟨(lo + shift).toNat, (hi + shift).toNat, step⟩

/-- Blank characters, and code points that are no characters. -/
def emptySpans : List Span :=
  (whiteSpaceRanges ++ [(0x1C, 0x1F), (0xD800, 0xDFFF)]).map fun (lo, hi) => ⟨lo, hi, 1⟩

theorem upperSpans_apart :
    (upperSpans.all fun s => (lowerSpans ++ emptySpans).all s.apart) = true := by
  decide +kernel

theorem upperSpans_last : (upperSpans.all fun s => Nat.blt s.last 0x110000) = true := by
  decide +kernel

theorem upperRuns_shift : ∀ r ∈ upperRuns, 0 ≤ (r.1 : Int) + r.2.2.2 := by decide +kernel

theorem upperSequences_ne_nil : ∀ e ∈ upperSequences, e.2 ≠ [] := by decide +kernel

/-- A code point of an upper case belongs to nothing else. -/
theorem has_eq_false_of_upper {s r : Span} {n : Nat} (hs : s ∈ upperSpans) (hn : s.has n = true)
    (hr : r ∈ lowerSpans ++ emptySpans) : r.has n = false :=
  Span.has_eq_false_of_apart
    (List.all_eq_true.1 (List.all_eq_true.1 upperSpans_apart s hs) r hr) hn

/-! ## Characters -/

/-- A character that is in no table is its own upper case. -/
theorem upperChar_eq_self {c : Char} (h : ∀ s ∈ lowerSpans, s.has c.toNat = false) :
    upperChar c = [c] := by
  have hseq : upperSequences.find? (·.1 == c.toNat) = none := by
    rw [List.find?_eq_none]
    intro e he heq
    have hs := h (.single e.1) (List.mem_append_left _ (List.mem_map_of_mem he))
    rw [Span.has_single.2 (beq_iff_eq.1 heq).symm] at hs
    cases hs
  have hrun : (upperRuns.find? fun (lo, hi, step, _) =>
      lo ≤ c.toNat && c.toNat ≤ hi && (c.toNat - lo) % step == 0) = none := by
    rw [List.find?_eq_none]
    intro e he heq
    have hs := h ⟨e.1, e.2.1, e.2.2.1⟩ (List.mem_append_right _ (List.mem_map_of_mem he))
    exact Bool.false_ne_true (hs.symm.trans heq)
  simp only [upperChar, hseq, hrun]

/-- The code points of an upper case are those of its characters. -/
theorem toNat_ofNat_of_upper {s : Span} {n : Nat} (hs : s ∈ upperSpans) (hn : s.has n = true) :
    (Char.ofNat n).toNat = n := by
  have hlast := List.all_eq_true.1 upperSpans_last s hs
  have hsurrogate : (⟨0xD800, 0xDFFF, 1⟩ : Span).has n = false :=
    has_eq_false_of_upper hs hn (List.mem_append_right _ (by simp [emptySpans]))
  have hvalid : n.isValidChar := by
    simp only [Span.has, Nat.mod_one, Bool.and_eq_true, decide_eq_true_eq, Nat.blt_eq,
      Bool.and_eq_false_iff, decide_eq_false_iff_not, beq_self_eq_true, Bool.true_eq_false,
      or_false] at *
    unfold Nat.isValidChar
    omega
  rw [Char.ofNat, dif_pos hvalid]
  rfl

/-- A character is its own upper case, or its upper case consists of characters that belong to
    an upper case. -/
theorem upperChar_cases (c : Char) :
    upperChar c = [c] ∨
      upperChar c ≠ [] ∧ ∀ u ∈ upperChar c, ∃ s ∈ upperSpans, s.has u.toNat = true := by
  cases hseq : upperSequences.find? (·.1 == c.toNat) with
  | some e =>
    have hc : upperChar c = e.2.map Char.ofNat := by simp only [upperChar, hseq]
    have he := List.mem_of_find?_eq_some hseq
    refine .inr ⟨hc ▸ fun h => upperSequences_ne_nil e he (List.map_eq_nil_iff.1 h), ?_⟩
    rw [hc, List.forall_mem_map]
    intro n hn
    have hs : Span.single n ∈ upperSpans :=
      List.mem_append_left _ (List.mem_flatMap.2 ⟨e, he, List.mem_map_of_mem hn⟩)
    have hn' := Span.has_single.2 (rfl : n = n)
    exact ⟨_, hs, by rwa [toNat_ofNat_of_upper hs hn']⟩
  | none =>
    cases hrun : upperRuns.find? fun (lo, hi, step, _) =>
        lo ≤ c.toNat && c.toNat ≤ hi && (c.toNat - lo) % step == 0 with
    | some e =>
      obtain ⟨lo, hi, step, shift⟩ := e
      have hc : upperChar c = [Char.ofNat ((c.toNat : Int) + shift).toNat] := by
        simp only [upperChar, hseq, hrun]
      have he := List.mem_of_find?_eq_some hrun
      have hshift := upperRuns_shift _ he
      have hs : (⟨(lo + shift).toNat, (hi + shift).toNat, step⟩ : Span) ∈ upperSpans :=
        List.mem_append_right _ (List.mem_map_of_mem he)
      have hn : (⟨(lo + shift).toNat, (hi + shift).toNat, step⟩ : Span).has
          ((c.toNat : Int) + shift).toNat = true := by
        have hfound := List.find?_some hrun
        simp only [Span.has, Bool.and_eq_true, decide_eq_true_eq, beq_iff_eq] at hfound hshift ⊢
        obtain ⟨⟨hlo, hhi⟩, hstep⟩ := hfound
        -- the distance to the first one is the same after the shift
        have hdist : ((c.toNat : Int) + shift).toNat - (lo + shift).toNat = c.toNat - lo := by
          omega
        exact ⟨by omega, hdist ▸ hstep⟩
      refine .inr ⟨hc ▸ List.cons_ne_nil _ _, ?_⟩
      rw [hc, List.forall_mem_singleton]
      exact ⟨_, hs, by rwa [toNat_ofNat_of_upper hs hn]⟩
    | none => exact .inl (by simp only [upperChar, hseq, hrun])

/-- A character of an upper case is its own upper case. -/
theorem upperChar_of_mem {c u : Char} (h : u ∈ upperChar c) : upperChar u = [u] := by
  rcases upperChar_cases c with hc | ⟨-, hall⟩
  · rw [hc, List.mem_singleton] at h
    rw [h, hc]
  · obtain ⟨s, hs, hu⟩ := hall u h
    exact upperChar_eq_self fun r hr => has_eq_false_of_upper hs hu (List.mem_append_left _ hr)

theorem upperChar_ne_nil (c : Char) : upperChar c ≠ [] := by
  rcases upperChar_cases c with hc | ⟨hne, -⟩
  · exact hc ▸ List.cons_ne_nil _ _
  · exact hne

/-- The upper case of a character that is not blank has no blanks. -/
theorem isBlank_of_mem_upperChar {c u : Char} (hc : isBlank c = false) (h : u ∈ upperChar c) :
    isBlank u = false := by
  rcases upperChar_cases c with hself | ⟨-, hall⟩
  · rw [hself, List.mem_singleton] at h
    rw [h, hc]
  · obtain ⟨s, hs, hu⟩ := hall u h
    have hempty (r : Nat × Nat) (hr : r ∈ whiteSpaceRanges ++ [(0x1C, 0x1F), (0xD800, 0xDFFF)]) :
        ¬ (decide (r.1 ≤ u.toNat) && decide (u.toNat ≤ r.2)) = true := by
      have hr' := has_eq_false_of_upper (r := ⟨r.1, r.2, 1⟩) hs hu
        (List.mem_append_right _ (List.mem_map_of_mem hr))
      simpa [Span.has, Nat.mod_one] using hr'
    rw [isBlank, isWhiteSpace, CharRanges.has, CharRanges.has, ← List.any_append,
      List.any_eq_false]
    refine fun r hr => hempty r ?_
    rcases List.mem_append.1 hr with hr | hr
    · exact List.mem_append_left _ hr
    · exact List.mem_append_right _ (List.mem_cons.2 (.inl (List.mem_singleton.1 hr)))

/-! ## Texts -/

/-- The upper case of a text has no blanks at its ends if the text has none. -/
theorem isTrimmed_upper {s : List Char} (h : IsTrimmed s) : IsTrimmed (s.flatMap upperChar) := by
  constructor
  · intro u hu
    cases s with
    | nil => cases hu
    | cons c r =>
      rw [List.flatMap_cons, List.head?_append_of_ne_nil _ (upperChar_ne_nil c)] at hu
      exact isBlank_of_mem_upperChar (h.head c rfl) (List.mem_of_head? hu)
  · intro u hu
    rcases List.eq_nil_or_concat s with rfl | ⟨r, c, rfl⟩
    · cases hu
    · rw [List.concat_eq_append, List.flatMap_append, List.flatMap_singleton,
        List.getLast?_append_of_ne_nil _ (upperChar_ne_nil c)] at hu
      exact isBlank_of_mem_upperChar (h.last c (by simp)) (List.mem_of_getLast? hu)

/-- Upper case stays the same. -/
theorem upperText_upperText (s : String) : upperText (upperText s) = upperText s := by
  simp only [upperText, String.toList_ofList, List.flatMap_assoc]
  refine congrArg _ ?_
  refine List.flatMap_congr fun c _ => ?_
  calc (upperChar c).flatMap upperChar = (upperChar c).flatMap fun u => [u] :=
        List.flatMap_congr fun u hu => upperChar_of_mem hu
    _ = upperChar c := List.flatMap_singleton' _

/-- **What is in capitals, without blanks around it, stays the same.** -/
theorem upperText_trimText_idem (s : String) :
    upperText (trimText (upperText (trimText s))) = upperText (trimText s) := by
  have htrimmed : IsTrimmed (upperText (trimText s)).toList := by
    simp only [upperText, trimText, String.toList_ofList]
    exact isTrimmed_upper (isTrimmed_trim s.toList)
  rw [trimText, trim_eq_self htrimmed, String.ofList_toList, upperText_upperText]

end PrimaryEnergy.Text
