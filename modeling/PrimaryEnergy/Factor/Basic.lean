/-
  Weighting factors.

  A factor turns energy delivered or exported into primary energy.  It is found by
  its key: carrier, source, destination and step.  A table may hold several rows
  with one key; the first one counts.

  * `Factor.Pattern` leaves parts of a key open, `find?` is the first row that a
    pattern matches and `has` tells whether there is one;
  * `carriers` are the distinct carriers in order of first occurrence.
-/
import PrimaryEnergy.Distinct
import PrimaryEnergy.Pair
import PrimaryEnergy.Table.Basic
import PrimaryEnergy.Vocabulary

namespace PrimaryEnergy

namespace Factor

/-- What a weighting factor is found by. -/
structure Key where
  carrier : Carrier
  source : Source
  dest : Dest
  step : Step
deriving DecidableEq, Repr

def Key.tokens (k : Key) : List String :=
  [Token.text k.carrier, Token.text k.source, Token.text k.dest, Token.text k.step]

/-- The tokens of a key with commas between them. -/
def Key.text (k : Key) : String := Text.joinText ", " k.tokens

/-- A key with parts left open. -/
structure Pattern where
  carrier : Option Carrier := none
  source : Option Source := none
  dest : Option Dest := none
  step : Option Step := none
deriving DecidableEq, Repr

/-- Whether an open part is absent or equal. -/
def Pattern.part {τ : Type} [DecidableEq τ] (wanted : Option τ) (x : τ) : Bool :=
  wanted.all (· == x)

/-- Whether a key agrees with the parts that are given. -/
def Pattern.matches (p : Pattern) (k : Key) : Bool :=
  part p.carrier k.carrier && part p.source k.source && part p.dest k.dest && part p.step k.step

/-- The pattern of a single key. -/
def Key.pattern (k : Key) : Pattern := ⟨some k.carrier, some k.source, some k.dest, some k.step⟩

@[simp] theorem matches_pattern {k k' : Key} : k.pattern.matches k' = true ↔ k = k' := by
  obtain ⟨c, s, d, t⟩ := k
  obtain ⟨c', s', d', t'⟩ := k'
  simp [Pattern.matches, Pattern.part, Key.pattern, and_assoc]

end Factor

/-- A weighting factor. -/
structure Factor (α : Type) where
  /-- What the factor is found by. -/
  key : Factor.Key
  /-- Primary energy per unit of energy. -/
  value : Pair α
  /-- A remark. -/
  comment : String := ""
deriving DecidableEq, Repr

/-- A table of weighting factors. -/
abbrev FactorTable (α : Type) := Table (Factor α)

namespace Factor

variable {α : Type}

/-- The first row that a pattern matches. -/
def find? (rows : List (Factor α)) (p : Pattern) : Option (Factor α) :=
  rows.find? fun f => p.matches f.key

def has (rows : List (Factor α)) (p : Pattern) : Bool := rows.any fun f => p.matches f.key

/-- The distinct carriers, in order of first occurrence. -/
def carriers (rows : List (Factor α)) : List Carrier := distinct (rows.map (·.key.carrier))

theorem isSome_find? (rows : List (Factor α)) (p : Pattern) :
    (find? rows p).isSome = has rows p := by
  unfold find? has
  exact List.isSome_find?

end Factor

end PrimaryEnergy
