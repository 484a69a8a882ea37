/-
  Words and numbers as fields of a row.

  A word is written as its token, a number with fixed places; neither has anything in it that
  ends a field (`LawfulToken.isField`, `isField_fixed`), and a word is read from its token
  (`Token.ofChars?_text`).
-/
import PrimaryEnergy.Proofs.Pair
import PrimaryEnergy.Proofs.Table.Text
import PrimaryEnergy.Vocabulary

namespace PrimaryEnergy

open Text TableText Decimal

/-! ## Words -/

section
variable {τ : Type} [Token τ]

/-- The characters of words. -/
def wordAlphabet : List Char := "ABCDEFGHIJKLMNOPQRSTUVWXYZ0123456789_".toList

/-- Words that are written as fields, and read back from them. -/
class LawfulToken (τ : Type) [Token τ] : Prop where
  isField : ∀ w : τ, IsField (Token.text w)
  ofText?_text : ∀ w : τ, Token.ofText? (Token.text w) = some w

end

theorem plain_wordAlphabet :
    ∀ c ∈ wordAlphabet, isBlank c = false ∧ c ≠ ',' ∧ c ≠ '#' := by decide

theorem isField_of_word {s : String} (h : s.toList ≠ [] ∧ ∀ c ∈ s.toList, c ∈ wordAlphabet) :
    IsField s :=
  .of_alphabet h.1 h.2 plain_wordAlphabet

instance : LawfulToken Carrier where
  isField w := isField_of_word (by cases w <;> decide)
  ofText?_text w := by cases w <;> rfl

instance : LawfulToken Source where
  isField w := isField_of_word (by cases w <;> decide)
  ofText?_text w := by cases w <;> rfl

instance : LawfulToken Dest where
  isField w := isField_of_word (by cases w <;> decide)
  ofText?_text w := by cases w <;> rfl

instance : LawfulToken Step where
  isField w := isField_of_word (by cases w <;> decide)
  ofText?_text w := by cases w <;> rfl

instance : LawfulToken FlowType where
  isField w := isField_of_word (by cases w <;> decide)
  ofText?_text w := by cases w <;> rfl

instance : LawfulToken FlowSubtype where
  isField w := isField_of_word (by cases w <;> decide)
  ofText?_text w := by cases w <;> rfl

instance : LawfulToken Service where
  isField w := isField_of_word (by cases w <;> decide)
  ofText?_text w := by cases w <;> rfl

theorem Token.ofChars?_text {τ : Type} [Token τ] [LawfulToken τ] (w : τ) :
    Token.ofChars? (Token.text w).toList = some w := by
  rw [Token.ofChars?, String.ofList_toList, LawfulToken.ofText?_text]

theorem Token.ofChars?_eq_some_iff {τ : Type} [Token τ] [LawfulToken τ] {s : List Char} {w : τ} :
    Token.ofChars? s = some w ↔ s = (Token.text w).toList := by
  constructor
  · intro h
    have hw := List.find?_some h
    rw [beq_iff_eq] at hw
    rw [hw, String.toList_ofList]
  · rintro rfl
    exact Token.ofChars?_text w

theorem Token.text_injective {τ : Type} [Token τ] [LawfulToken τ] :
    Function.Injective (Token.text : τ → String) := by
  intro w w' h
  have hw := LawfulToken.ofText?_text w
  rw [h, LawfulToken.ofText?_text] at hw
  exact (Option.some.inj hw).symm

/-! ## Numbers -/

theorem isField_fixed (places : Nat) (x : Float) : IsField (fixed places x) := by
  have hplain : ∀ c ∈ fixedAlphabet, isBlank c = false ∧ c ≠ ',' ∧ c ≠ '#' := by decide
  refine .of_alphabet ?_ ?_ hplain
  · rw [toList_fixed]; exact fixedChars_ne_nil places x
  · rw [toList_fixed]; exact fun _ => mem_fixedAlphabet

end PrimaryEnergy
