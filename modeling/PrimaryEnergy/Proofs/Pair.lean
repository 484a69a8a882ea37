/-
  The text of pairs in metadata, read back.

  `Pair.IsText` tells which texts stand for pairs: these are read (`Pair.ofText_eq_ok_iff`).
  `Pair.rounded` is what the text of a pair stands for: it is read as that
  (`Pair.ofText_metaText`), and it has the same text (`Pair.metaText_rounded`).
-/
import PrimaryEnergy.Pair
import PrimaryEnergy.Proofs.Decimal.Fixed
import PrimaryEnergy.Proofs.Text.Lines

namespace PrimaryEnergy

open Decimal Text

/-! ## Texts with fixed places as fields -/

theorem isTrimmed_of_alphabet {s : List Char} (h : ∀ c ∈ s, c ∈ fixedAlphabet) : IsTrimmed s := by
  have hblank : ∀ c ∈ fixedAlphabet, isBlank c = false := by decide
  exact ⟨fun c hc => hblank c (h c (List.mem_of_mem_head? hc)),
    fun c hc => hblank c (h c (List.mem_of_getLast? hc))⟩

theorem isTrimmed_fixed (places : Nat) (x : Float) : IsTrimmed (fixed places x).toList := by
  rw [toList_fixed]
  exact isTrimmed_of_alphabet fun _ => mem_fixedAlphabet

/-- Characters outside of the alphabet do not occur. -/
theorem not_mem_fixed {c : Char} (hc : c ∉ fixedAlphabet) (places : Nat) (x : Float) :
    c ∉ (fixed places x).toList := by
  rw [toList_fixed]
  exact fun h => hc (mem_fixedAlphabet h)

/-! ## Pairs -/

namespace Pair

/-- The pair that the text of a pair stands for. -/
def rounded (p : Pair Float) : Pair Float := ⟨roundedTo 3 p.ren, roundedTo 3 p.nren⟩

theorem metaText_rounded (p : Pair Float) : p.rounded.metaText = p.metaText := by
  rw [metaText, metaText, rounded, fixed_roundedTo, fixed_roundedTo]

theorem toList_metaText (p : Pair Float) :
    p.metaText.toList = (fixed 3 p.ren).toList ++ ',' :: ' ' :: (fixed 3 p.nren).toList := by
  simp [metaText]

theorem number_eq_ok_iff {s : List Char} {x : Float} :
    number s = .ok x ↔ freeNumber? s = some x := by
  unfold number
  cases freeNumber? s <;> simp

/-- A text of two numbers, blanks aside, with the only comma between them. -/
def IsText (s : String) (p : Pair Float) : Prop :=
  ∃ a b, s.toList = a ++ ',' :: b ∧ ',' ∉ a ∧ ',' ∉ b ∧
    freeNumber? (trim a) = some p.ren ∧ freeNumber? (trim b) = some p.nren

/-- **The texts of two numbers are read as pairs, and no others.** -/
theorem ofText_eq_ok_iff {s : String} {p : Pair Float} : ofText s = .ok p ↔ IsText s p := by
  constructor
  · intro h
    unfold ofText at h
    split at h
    · next a b hf =>
      obtain ⟨a', l, hab, rfl, hl⟩ := List.map_eq_cons_iff.1 hf
      obtain ⟨b', rfl, rfl⟩ := List.map_eq_singleton_iff.1 hl
      obtain ⟨hs, ha, hb⟩ := fields_eq_pair_iff.1 hab
      cases hx : number (trim a') with
      | error e => rw [hx] at h; cases h
      | ok x =>
        cases hy : number (trim b') with
        | error e => rw [hx, hy] at h; cases h
        | ok y =>
          rw [hx, hy] at h
          cases h
          exact ⟨a', b', hs, ha, hb, number_eq_ok_iff.1 hx, number_eq_ok_iff.1 hy⟩
    · cases h
  · rintro ⟨a, b, hs, ha, hb, hx, hy⟩
    have hfields : (fields ',' s.toList).map trim = [trim a, trim b] := by
      rw [fields_eq_pair_iff.2 ⟨hs, ha, hb⟩, List.map_cons, List.map_singleton]
    unfold ofText
    simp only [hfields, number_eq_ok_iff.2 hx, number_eq_ok_iff.2 hy]
    rfl

/-- **The text of a pair is read as the pair that it stands for.** -/
theorem ofText_metaText (p : Pair Float) : ofText p.metaText = .ok p.rounded := by
  have hcomma : ',' ∉ fixedAlphabet := by decide
  have hspace : ',' ∉ ' ' :: (fixed 3 p.nren).toList := by
    rw [List.mem_cons, not_or]
    exact ⟨by decide, not_mem_fixed hcomma 3 p.nren⟩
  refine ofText_eq_ok_iff.2 ⟨_, _, toList_metaText p, not_mem_fixed hcomma 3 p.ren, hspace, ?_, ?_⟩
  · rw [trim_eq_self (isTrimmed_fixed 3 p.ren), toList_fixed, freeNumber?_fixedChars]
    rfl
  · rw [trim_blank_cons rfl (isTrimmed_fixed 3 p.nren), toList_fixed, freeNumber?_fixedChars]
    rfl

end Pair

end PrimaryEnergy
