/-
  Metadata: texts under keys, in order.

  A key may occur several times; reading and writing use its first entry.

  * `get?` is the value of the first entry with a key;
  * `set` changes that entry or appends one (`get?_set`: the value is there
    afterwards; `get?_set_of_ne`: other keys keep theirs);
  * `lastValues` keeps one entry a key, at its first place and with its last value.
-/
namespace PrimaryEnergy

/-- A text under a key. -/
structure MetaEntry where
  key : String
  value : String
deriving DecidableEq, Repr

/-- Metadata entries in order. -/
abbrev Metadata := List MetaEntry

namespace Metadata

/-- The value of the first entry with a key. -/
def get? : Metadata → String → Option String
  | [], _ => none
  | e :: es, k => if e.key = k then some e.value else get? es k

/-- Changes the first entry with a key, or appends an entry. -/
def set : Metadata → String → String → Metadata
  | [], k, v => [⟨k, v⟩]
  | e :: es, k, v => if e.key = k then ⟨k, v⟩ :: es else e :: set es k v

@[simp] theorem get?_set (m : Metadata) (k v : String) : (m.set k v).get? k = some v := by
  induction m with
  | nil => simp [set, get?]
  | cons e es ih => unfold set; split <;> simp [get?, *]

theorem get?_set_of_ne (m : Metadata) {k k' : String} (v : String) (h : k' ≠ k) :
    (m.set k v).get? k' = m.get? k' := by
  induction m with
  | nil => simp [set, get?, h.symm]
  | cons e es ih =>
    unfold set; split
    · rename_i he; simp [get?, he, h.symm]
    · simp [get?, ih]

/-- A value that is there already is not written again. -/
theorem set_eq_self {m : Metadata} {k v : String} (h : m.get? k = some v) : m.set k v = m := by
  induction m with
  | nil => cases h
  | cons e es ih =>
    unfold get? at h
    unfold set
    split
    · rename_i he
      rw [if_pos he] at h
      cases h
      rw [← he]
    · rename_i he
      rw [if_neg he] at h
      rw [ih h]

/-- One entry a key, at its first place and with its last value. -/
def lastValues (m : Metadata) : Metadata := m.foldl (fun d e => d.set e.key e.value) []

end Metadata

/-! ## Keys with a meaning -/

namespace Metadata

/-- The perimeter of the assessment that a table belongs to. -/
def perimeterKey : String := "CTE_PERIMETRO"

/-- The service that components were selected for. -/
def serviceKey : String := "CTE_SERVICIO"

/-- The location of a factor table. -/
def locationKey : String := "CTE_LOCALIZACION"

/-- The value of `perimeterKey` for the nearby perimeter. -/
def nearbyPerimeter : String := "NEARBY"

end Metadata

end PrimaryEnergy
