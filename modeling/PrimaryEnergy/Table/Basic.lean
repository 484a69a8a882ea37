/-
  Tables: rows with metadata.

  Tables can be put one after the other (`Table.append`); a table that is read from
  a text is put together from one table a line (`Table.concat`).
-/
import PrimaryEnergy.Metadata

namespace PrimaryEnergy

/-- Rows with metadata. -/
structure Table (ρ : Type) where
  metadata : Metadata := []
  /-- The rows in order. -/
  rows : List ρ := []
deriving DecidableEq, Repr

namespace Table

variable {ρ : Type}

/-- The value of the first metadata entry with a key. -/
def getMeta? (t : Table ρ) (k : String) : Option String := t.metadata.get? k

/-- Changes the first metadata entry with a key, or appends an entry. -/
def setMeta (t : Table ρ) (k v : String) : Table ρ := { t with metadata := t.metadata.set k v }

/-- The metadata and the rows of one table, then those of another. -/
def append (t u : Table ρ) : Table ρ := ⟨t.metadata ++ u.metadata, t.rows ++ u.rows⟩

instance : Append (Table ρ) := ⟨append⟩

@[simp] theorem metadata_append (t u : Table ρ) : (t ++ u).metadata = t.metadata ++ u.metadata :=
  rfl

@[simp] theorem rows_append (t u : Table ρ) : (t ++ u).rows = t.rows ++ u.rows := rfl

/-- Tables one after the other. -/
def concat (ts : List (Table ρ)) : Table ρ := ⟨ts.flatMap (·.metadata), ts.flatMap (·.rows)⟩

theorem concat_append (ts us : List (Table ρ)) : concat (ts ++ us) = concat ts ++ concat us := by
  simp only [concat, List.flatMap_append]; rfl

end Table

end PrimaryEnergy
