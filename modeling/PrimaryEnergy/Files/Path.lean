/-
  Paths of files.

  `Path.ofText` reads a path: empty parts and single dots do not count.  Two dots lead back
  to the directory above; where a path with them leads depends on the directories there are.
-/
import PrimaryEnergy.Text.Lines

namespace PrimaryEnergy

/-- A path of a file or a directory. -/
structure Path where
  /-- Whether the path starts at the root. -/
  absolute : Bool := false
  /-- The names on the way. -/
  parts : List String := []
deriving DecidableEq, Repr

namespace Path

/-- Reads a path. -/
def ofText (s : String) : Path where
  absolute := s.toList.head? == some '/'
  parts := ((Text.fields '/' s.toList).map String.ofList).filter fun p => p ≠ "" && p ≠ "."

def text (p : Path) : String :=
  let names := "/".intercalate p.parts
  if p.absolute then "/" ++ names else if p.parts.isEmpty then "." else names

/-- A file in a directory. -/
def child (p : Path) (name : String) : Path := { p with parts := p.parts ++ [name] }

/-- The directory that a path lies in. -/
def parent (p : Path) : Path := { p with parts := p.parts.dropLast }

/-- The path where a path starts. -/
def start (p : Path) : Path := { p with parts := [] }

/-- The part that leads back to the directory above. -/
def upward : String := ".."

/-- Whether a path only leads to directories above its start, or stays there. -/
def isAbove (p : Path) : Bool := p.parts.all (· = upward)

/-- One step on the way: into a directory, or back to the one above.  Nothing is above the
    root. -/
def step (p : Path) (name : String) : Path :=
  if name ≠ upward then p.child name
  else if !p.isAbove then p.parent
  else if p.absolute then p
  else p.child name

@[simp] theorem parent_child (p : Path) (name : String) : (p.child name).parent = p := by
  simp [child, parent]

/-- Two files of one directory are the same only if they have the same name. -/
@[simp] theorem child_inj {p : Path} {a b : String} : p.child a = p.child b ↔ a = b := by
  simp [child]

end Path

end PrimaryEnergy
