/-
  Documents: the values of configuration files.

  The fields of an object have a fixed order and distinct names (`objectOf`, for objects
  that are read from JSON texts, keeps a repeated name at its first place, with its last
  value).  Files may also give values under names that are no texts; an object with such
  names is told apart, and of its fields only those with texts for names are kept.
-/
import PrimaryEnergy.Decimal.Double
import PrimaryEnergy.Document.Moment

namespace PrimaryEnergy

/-- A value of a configuration file. -/
inductive Document where
  | null
  | bool (b : Bool)
  /-- A number written without point and exponent. -/
  | int (n : Int)
  /-- Any other number. -/
  | real (x : Float)
  /-- A day, perhaps with a time. -/
  | moment (m : Moment)
  | text (s : String)
  | list (items : List Document)
  /-- Values under names. -/
  | object (fields : List (String × Document))
  /-- Values under names, some of which are no texts and left out here. -/
  | mixed (fields : List (String × Document))
deriving Repr

namespace Document

/-- Gives a name a value: in its place if it is there, else at the end. -/
def put : List (String × Document) → String → Document → List (String × Document)
  | [], k, v => [(k, v)]
  | (k', v') :: r, k, v => if k' = k then (k, v) :: r else (k', v') :: put r k v

/-- Fields with distinct names; of a repeated name the last value counts. -/
def distinctFields (fields : List (String × Document)) : List (String × Document) :=
  fields.foldl (fun d f => put d f.1 f.2) []

/-- The object with these fields; of a repeated name the last value counts. -/
def objectOf (fields : List (String × Document)) : Document := .object (distinctFields fields)

/-- The field with a name. -/
def field? : Document → String → Option Document
  | .object fields, k | .mixed fields, k => fields.lookup k
  | _, _ => none

/-- The integer as a double. -/
def ofInt (n : Int) : Float := Decimal.nearest (n < 0) n.natAbs 1

/-- What kind of value it is, as messages name it. -/
def kind : Document → String
  | .null => "NoneType"
  | .bool _ => "bool"
  | .int _ => "int"
  | .real _ => "float"
  | .moment m => if m.time.isSome then "datetime.datetime" else "datetime.date"
  | .text _ => "str"
  | .list _ => "list"
  | .object _ | .mixed _ => "dict"

end Document

end PrimaryEnergy
