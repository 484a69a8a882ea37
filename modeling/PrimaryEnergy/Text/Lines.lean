/-
  Lines and fields.

  * `splitLines` cuts a text at its line breaks; carriage return and line feed
    together are one break, and a break at the end opens no further line;
  * `fields` cuts at every separator, `cut` at the first one
    (`cut_append`: nothing but that separator is lost);
  * `joinLines` and `joinText` put pieces together.
-/
import PrimaryEnergy.Text.Blank

namespace PrimaryEnergy.Text

/-! ## Lines -/

/-- The characters that end a line. -/
def isLineBreak (c : Char) : Bool :=
  CharRanges.has [(0x0A, 0x0D), (0x1C, 0x1E), (0x85, 0x85), (0x2028, 0x2029)] c

/-- The lines of a text, without their breaks. -/
def splitLines : List Char → List (List Char)
  | [] => []
  | '\r' :: '\n' :: r => [] :: splitLines r
  | c :: r =>
    if isLineBreak c then [] :: splitLines r
    else match splitLines r with
      | [] => [[c]]
      | l :: ls => (c :: l) :: ls

/-- Every way to break a line, written as a line feed. -/
def plainBreaks : List Char → List Char
  | [] => []
  | '\r' :: '\n' :: r => '\n' :: plainBreaks r
  | c :: r => (if c = '\r' then '\n' else c) :: plainBreaks r

/-- The lines of a text file, each ended by a line feed. -/
def joinLines (ls : List String) : String := "\n".intercalate ls ++ "\n"

/-! ## Fields -/

/-- The pieces of a text between the separators; there is always at least one. -/
def fields (sep : Char) : List Char → List (List Char)
  | [] => [[]]
  | c :: r =>
    if c = sep then [] :: fields sep r
    else match fields sep r with
      | [] => [[c]]
      | f :: fs => (c :: f) :: fs

theorem fields_ne_nil (sep : Char) (s : List Char) : fields sep s ≠ [] := by
  cases s with
  | nil => simp [fields]
  | cons c r =>
    unfold fields
    split
    · simp
    · split <;> simp

/-- The text before the first separator and, if there is one, the text after it. -/
def cut (sep : Char) : List Char → List Char × Option (List Char)
  | [] => ([], none)
  | c :: r =>
    if c = sep then ([], some r)
    else ((c :: (cut sep r).1), (cut sep r).2)

theorem cut_append (sep : Char) (s : List Char) :
    s = (cut sep s).1 ++ match (cut sep s).2 with | none => [] | some r => sep :: r := by
  induction s with
  | nil => rfl
  | cons c r ih =>
    unfold cut; split
    · rename_i h; simp [h]
    · simp only [List.cons_append]; rw [← ih]

/-- Pieces with a separator between them. -/
def joinText (sep : String) (pieces : List String) : String := sep.intercalate pieces

end PrimaryEnergy.Text
