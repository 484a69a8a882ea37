/-
  Element-by-element arithmetic on series.

  Of two series of different length the shorter one is extended with zeros
  (`length_zipPadded`: the result is as long as the longer one).
-/
import PrimaryEnergy.Series.Sum

namespace PrimaryEnergy.Series

variable {α : Type}

/-- Combines two series element by element. -/
def zipPadded [Zero α] (f : α → α → α) (a b : List α) : List α :=
  let n := max a.length b.length
  List.zipWith f (pad n a) (pad n b)

@[simp] theorem length_zipPadded [Zero α] (f : α → α → α) (a b : List α) :
    (zipPadded f a b).length = max a.length b.length := by
  rw [zipPadded, List.length_zipWith, length_pad, length_pad]; omega

/-- The element-by-element sum. -/
def add [Zero α] [Add α] (a b : List α) : List α := zipPadded (· + ·) a b

/-- The element-by-element difference. -/
def sub [Zero α] [Sub α] (a b : List α) : List α := zipPadded (· - ·) a b

/-- The element-by-element product. -/
def mul [Zero α] [Mul α] (a b : List α) : List α := zipPadded (· * ·) a b

/-- The smaller of two values; the second one if neither is smaller, and not a number
    if one of them is not. -/
def lesser [LT α] [DecidableLT α] [BEq α] (x y : α) : α :=
  if x < y || undefinedValue x then x else y

/-- The element-by-element minimum. -/
def min [Zero α] [LT α] [DecidableLT α] [BEq α] (a b : List α) : List α := zipPadded lesser a b

/-- Every element multiplied by a number. -/
def scale [Mul α] (k : α) (v : List α) : List α := v.map (· * k)

/-- A value, or zero if it is below zero. -/
def clamp [Zero α] [LT α] [DecidableLT α] (x : α) : α := if x < 0 then 0 else x

end PrimaryEnergy.Series
