/-
  Blank characters and trimming.

  * `CharRanges` are sets of characters as closed ranges of code points;
  * `isWhiteSpace` is the Unicode property White_Space;
  * `isBlank` adds the four information separators U+001C to U+001F: the
    characters that are dropped at both ends of a line or a field;
  * `trim` drops blanks, `trimSpace` white space, at both ends
    (`trim_eq_self`: nothing happens to a text without blanks at its ends).
-/
namespace PrimaryEnergy.Text

/-! ## Sets of characters -/

/-- Closed ranges of code points. -/
abbrev CharRanges := List (Nat × Nat)

/-- Whether a character lies in one of the ranges. -/
def CharRanges.has (rs : CharRanges) (c : Char) : Bool :=
  rs.any fun r => r.1 ≤ c.toNat && c.toNat ≤ r.2

/-- A text is searched instead of all the characters that there are. -/
instance (priority := high) decidableForallMem (p : Char → Prop) [DecidablePred p] (s : List Char) :
    Decidable (∀ c ∈ s, p c) := List.decidableBAll p s

/-- So is the character there may be. -/
instance (priority := high) decidableForallMemOption (p : Char → Prop) [DecidablePred p]
    (o : Option Char) : Decidable (∀ c ∈ o, p c) := Option.decidableForallMem o

/-! ## Blanks -/

/-- The characters with the property White_Space. -/
def whiteSpaceRanges : CharRanges :=
  [(0x09, 0x0D), (0x20, 0x20), (0x85, 0x85), (0xA0, 0xA0), (0x1680, 0x1680), (0x2000, 0x200A),
   (0x2028, 0x2029), (0x202F, 0x202F), (0x205F, 0x205F), (0x3000, 0x3000)]

/-- Whether a character has the property White_Space. -/
def isWhiteSpace (c : Char) : Bool := whiteSpaceRanges.has c

/-- Whether a character is dropped at the ends of lines and fields. -/
def isBlank (c : Char) : Bool := isWhiteSpace c || CharRanges.has [(0x1C, 0x1F)] c

/-- Drops the characters of a class at both ends. -/
def trimBy (p : Char → Bool) (s : List Char) : List Char :=
  ((s.dropWhile p).reverse.dropWhile p).reverse

/-- Drops blanks at both ends. -/
def trim (s : List Char) : List Char := trimBy isBlank s

/-- Drops white space at both ends. -/
def trimSpace (s : List Char) : List Char := trimBy isWhiteSpace s

def trimText (s : String) : String := String.ofList (trim s.toList)

theorem trimBy_eq_self {p : Char → Bool} {s : List Char} (h₁ : ∀ c ∈ s.head?, p c = false)
    (h₂ : ∀ c ∈ s.getLast?, p c = false) : trimBy p s = s := by
  have hd : s.dropWhile p = s := by
    cases s with
    | nil => rfl
    | cons c r => simp [List.dropWhile, h₁ c (by simp)]
  have hr : s.reverse.dropWhile p = s.reverse := by
    cases hs : s.reverse with
    | nil => rfl
    | cons c r =>
      have : p c = false := h₂ c (by simp [← List.head?_reverse, hs])
      simp [List.dropWhile, this]
  rw [trimBy, hd, hr, List.reverse_reverse]

end PrimaryEnergy.Text
