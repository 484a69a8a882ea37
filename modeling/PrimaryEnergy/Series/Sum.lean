/-
  Sums of series.

  A rounded sum depends on the order of its additions, so each order has its own
  function; over exact numbers they all give the sum of the elements.

  * `leftSum` adds from the left, starting at zero;
  * `pairwiseSum` keeps eight running sums over blocks of eight, adds those in
    pairs and then the elements left over; a series of more than 128 elements is
    cut in two at a multiple of eight (`splitPoint_lt`: both parts are shorter) and
    the two sums are added.  `total` is zero plus that sum;
  * `columnSums` adds several series element by element, row after row; columns of
    a single row are summed like `total`;
  * `compensatedSum` carries the rounding error of each addition to the next one
    and leaves out what is not a number.
-/
namespace PrimaryEnergy.Series

variable {α : Type}

/-! ## From the left -/

/-- The sum from the left, starting at zero. -/
def leftSum [Zero α] [Add α] (v : List α) : α := v.foldl (· + ·) 0

/-! ## In pairs -/

/-- Eight running sums over the blocks of eight that are left. -/
def lanes [Add α] (r₀ r₁ r₂ r₃ r₄ r₅ r₆ r₇ : α) : List α → α
  | a₀ :: a₁ :: a₂ :: a₃ :: a₄ :: a₅ :: a₆ :: a₇ :: v =>
    lanes (r₀ + a₀) (r₁ + a₁) (r₂ + a₂) (r₃ + a₃) (r₄ + a₄) (r₅ + a₅) (r₆ + a₆) (r₇ + a₇) v
  | v => v.foldl (· + ·) (((r₀ + r₁) + (r₂ + r₃)) + ((r₄ + r₅) + (r₆ + r₇)))

/-- The sum in blocks of eight; fewer than eight elements are added from the left. -/
def blockedSum [Zero α] [Add α] : List α → α
  | a₀ :: a₁ :: a₂ :: a₃ :: a₄ :: a₅ :: a₆ :: a₇ :: v => lanes a₀ a₁ a₂ a₃ a₄ a₅ a₆ a₇ v
  | v => leftSum v

/-- Where a long series is cut: the multiple of eight at or below its half. -/
def splitPoint (n : Nat) : Nat := n / 2 - n / 2 % 8

theorem splitPoint_pos {n : Nat} (h : 128 < n) : 0 < splitPoint n := by
  unfold splitPoint; omega

theorem splitPoint_lt {n : Nat} (h : 128 < n) : splitPoint n < n := by
  unfold splitPoint; omega

/-- The sum in pairs. -/
def pairwiseSum [Zero α] [Add α] (v : List α) : α :=
  if 128 < v.length then
    pairwiseSum (v.take (splitPoint v.length)) + pairwiseSum (v.drop (splitPoint v.length))
  else blockedSum v
termination_by v.length
decreasing_by
  all_goals
    rename_i h
    have := splitPoint_pos h
    have := splitPoint_lt h
    simp only [List.length_take, List.length_drop]
    omega

/-- The sum of all elements of a series. -/
def total [Zero α] [Add α] (v : List α) : α := 0 + pairwiseSum v

/-! ## By columns -/

/-- The length of the longest series. -/
def longest (vs : List (List α)) : Nat := (vs.map List.length).foldl max 0

/-- A series extended with zeros up to a length. -/
def pad [Zero α] (n : Nat) (v : List α) : List α := v ++ List.replicate (n - v.length) 0

@[simp] theorem length_pad [Zero α] (n : Nat) (v : List α) :
    (pad n v).length = max v.length n := by
  simp [pad]; omega

/-- The element-by-element sum of several series, as long as the longest of them. -/
def columnSums [Zero α] [Add α] (vs : List (List α)) : List α :=
  let n := longest vs
  let rows := vs.map (pad n)
  if n = 1 then [total rows.flatten]
  else rows.foldl (List.zipWith (· + ·)) (List.replicate n 0)

/-! ## With compensation -/

/-- Whether a value differs from itself, as only a value that is no number does. -/
def undefinedValue [BEq α] (v : α) : Bool := !(v == v)

/-- A running sum and the rounding error to take off the next element. -/
structure Compensated (α : Type) where
  /-- The sum so far. -/
  sum : α
  /-- The error of the last addition. -/
  error : α
deriving Repr

/-- Adds one element with compensation. -/
def Compensated.add [Zero α] [Add α] [Sub α] [BEq α] (c : Compensated α) (v : α) : Compensated α :=
  if undefinedValue v then c
  else
    let y := v - c.error
    let t := c.sum + y
    let e := (t - c.sum) - y
    ⟨t, if undefinedValue e then 0 else e⟩

/-- The compensated sum from the left. -/
def compensatedSum [Zero α] [Add α] [Sub α] [BEq α] (v : List α) : α :=
  (v.foldl Compensated.add ⟨0, 0⟩).sum

end PrimaryEnergy.Series
