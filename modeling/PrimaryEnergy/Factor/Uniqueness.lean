/-
  Uniqueness of keys.

  Look-ups use the first row with a key, so repeated keys are tolerated unless a table
  is checked strictly.
-/
import PrimaryEnergy.Factor.Basic

namespace PrimaryEnergy

/-- Keys that several rows of a table have, where each may have only one. -/
structure DuplicatedKeys where
  /-- The keys, in the order of their first occurrence. -/
  keys : List Factor.Key
deriving DecidableEq, Repr

namespace DuplicatedKeys

/-- The keys, as messages show them. -/
def described (keys : List Factor.Key) : String := Text.joinText "; " (keys.map (·.text))

/-- What a reader is told about it. -/
def message (d : DuplicatedKeys) : String :=
  "Duplicated weighting factor keys: " ++ described d.keys

end DuplicatedKeys

namespace FactorTable

variable {α : Type}

/-- The keys that several rows have, in the order of their first occurrence. -/
def repeatedKeys (t : FactorTable α) : List Factor.Key := repeated (t.rows.map (·.key))

/-- The repeated keys; a failure if there are any and the check is strict. -/
def checkKeys (t : FactorTable α) (strict : Bool) : Except DuplicatedKeys (List Factor.Key) :=
  if strict && !t.repeatedKeys.isEmpty then .error ⟨t.repeatedKeys⟩ else .ok t.repeatedKeys

end FactorTable

end PrimaryEnergy
