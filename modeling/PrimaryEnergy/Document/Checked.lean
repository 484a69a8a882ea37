/-
  Records read from documents.

  Reading goes through all fields of a record and collects every problem, so that a
  configuration can be mended at once.

  * `Checked` is a value or the problems that were found; putting two of them together
    keeps the problems of both, in order (`problems_seq`);
  * the readers of single values (`text`, `real`, `truth`, `word`, …) and of fields
    (`required`, `optional`) are put together with `<*>`.
-/
import PrimaryEnergy.Decimal.Numeral
import PrimaryEnergy.Document.Basic
import PrimaryEnergy.Vocabulary

namespace PrimaryEnergy

/-! ## Problems -/

/-- What is wrong with a value. -/
inductive Violation where
  | missing
  | notText
  | notWord
  /-- The value is neither a number nor a text. -/
  | notNumber
  | unreadableNumber
  /-- The value is neither a truth value nor can stand for one. -/
  | notTruth
  /-- The number or text does not stand for a truth value. -/
  | unreadableTruth
  | notPositive
  | notList
  /-- The value is not a collection of named values. -/
  | notMapping
  | notRecord
  | refused (reason : String)
deriving DecidableEq, Repr

def Violation.code : Violation → String
  | missing => "missing"
  | notText => "string_type"
  | notWord => "enum"
  | notNumber => "float_type"
  | unreadableNumber => "float_parsing"
  | notTruth => "bool_type"
  | unreadableTruth => "bool_parsing"
  | notPositive => "greater_than"
  | notList => "list_type"
  | notMapping => "dict_type"
  | notRecord => "model_type"
  | refused reason => "value_error (Value error, " ++ reason ++ ")"

/-- A violation and where it is. -/
structure Problem where
  /-- The names and indices that lead to the value; none for the record itself. -/
  path : List String
  violation : Violation
deriving DecidableEq, Repr

def Problem.text (p : Problem) : String :=
  (if p.path.isEmpty then "-" else ".".intercalate p.path) ++ ": " ++ p.violation.code

/-- Why a document does not hold what is wanted. -/
inductive DocumentFault where
  /-- The record with this title has problems. -/
  | invalid (title : String) (problems : List Problem)
  /-- The whole document is of this kind instead of a collection of named values. -/
  | notMapping (title kind : String)
  /-- The whole document has names that are no texts. -/
  | notNames
  /-- A value of this kind stands where several are wanted. -/
  | notIterable (kind : String)
deriving DecidableEq, Repr

/-- What a reader is told about it. -/
def DocumentFault.message : DocumentFault → String
  | invalid title problems =>
    problems.length.repr ++ " validation error" ++ (if problems.length = 1 then "" else "s") ++
      " for " ++ title ++ String.join (problems.map fun p => "\n" ++ p.text)
  | notMapping title kind =>
    "epbd_engine.core.schemas." ++ title ++ "() argument after ** must be a mapping, not " ++ kind
  | notNames => "keywords must be strings"
  | notIterable kind => "'" ++ kind ++ "' object is not iterable"

/-! ## Collecting problems -/

/-- A value, or the problems that were found. -/
inductive Checked (α : Type) where
  | valid (a : α)
  | invalid (problems : List Problem)
deriving Repr

namespace Checked

variable {α β : Type}

def problems : Checked α → List Problem
  | valid _ => []
  | invalid ps => ps

/-- Applies a function to the value. -/
def map (f : α → β) : Checked α → Checked β
  | valid a => valid (f a)
  | invalid ps => invalid ps

/-- Applies a function, both of which may have problems. -/
def seq (f : Checked (α → β)) (a : Checked α) : Checked β :=
  match f, a with
  | valid f, valid a => valid (f a)
  | f, a => invalid (f.problems ++ a.problems)

instance : Applicative Checked where
  pure := valid
  map := map
  seq f a := f.seq (a ())

@[simp] theorem problems_seq (f : Checked (α → β)) (a : Checked α) :
    (f.seq a).problems = f.problems ++ a.problems := by
  cases f <;> cases a <;> simp [seq, problems]

/-- A single problem with the value itself. -/
def fail (v : Violation) : Checked α := invalid [⟨[], v⟩]

/-- The problems are those of the value with this name or index. -/
def under (name : String) : Checked α → Checked α
  | valid a => valid a
  | invalid ps => invalid (ps.map fun p => { p with path := name :: p.path })

/-- A further test of a value. -/
def ensure (a : Checked α) (p : α → Bool) (v : Violation) : Checked α :=
  match a with
  | valid a => if p a then valid a else fail v
  | invalid ps => invalid ps

/-- Reads every item of a list; `name` tells what an item is called. -/
def all (name : Nat → String) (read : β → Checked α) (items : List β) : Checked (List α) :=
  (items.zipIdx.map fun (d, i) => (read d).under (name i)).foldr
    (fun a as => (a.map List.cons).seq as) (valid [])

/-- The value; else the record with this title is invalid. -/
def toExcept (title : String) : Checked α → Except DocumentFault α
  | valid a => .ok a
  | invalid ps => .error (.invalid title ps)

end Checked

/-! ## Readers of values -/

namespace Document

variable {α : Type}

/-- Reads a text. -/
def asText : Document → Checked String
  | .text s => .valid s
  | _ => .fail .notText

/-- Reads a word. -/
def asWord {τ : Type} [Token τ] : Document → Checked τ
  | .text s =>
    match Token.ofText? s with
    | some w => .valid w
    | none => .fail .notWord
  | _ => .fail .notWord

/-- Whether a double is a number and not infinite. -/
def isFinite (x : Float) : Bool := x - x == 0

/-- Reads a number, which may be written as a text; truth values count as 1 and 0, and an
    integer must not be too large for a double. -/
def asReal : Document → Checked Float
  | .real x => .valid x
  | .int n => if isFinite (ofInt n) then .valid (ofInt n) else .fail .notNumber
  | .bool b => .valid (if b then 1 else 0)
  | .text s =>
    match Decimal.fieldNumber? s.toList with
    | some x => .valid x
    | none => .fail .unreadableNumber
  | _ => .fail .notNumber

/-- The texts that stand for true. -/
def trueTexts : List String := ["1", "t", "true", "y", "yes", "on"]

/-- The texts that stand for false. -/
def falseTexts : List String := ["0", "f", "false", "n", "no", "off"]

/-- The number of integers of 63 bits. -/
def wordBound : Nat := Nat.pow 2 63

/-- Reads a truth value, which may be written as the number 1 or 0 or as a text.  Another whole
    number does not stand for one; a number that is not whole, or needs more than a signed
    word of 64 bits, is not even read. -/
def asTruth : Document → Checked Bool
  | .bool b => .valid b
  | .int n =>
    if n = 1 then .valid true
    else if n = 0 then .valid false
    else if -(wordBound : Int) ≤ n ∧ n < wordBound then .fail .unreadableTruth
    else .fail .notTruth
  | .real x =>
    if x == 1 then .valid true
    else if x == 0 then .valid false
    else if x.floor == x && ofInt (-(wordBound : Int)) < x && x < ofInt wordBound then
      .fail .unreadableTruth
    else .fail .notTruth
  | .text s =>
    let word := String.ofList (Text.lowerAscii s.toList)
    if trueTexts.contains word then .valid true
    else if falseTexts.contains word then .valid false
    else .fail .unreadableTruth
  | _ => .fail .notTruth

def asList (read : Document → Checked α) : Document → Checked (List α)
  | .list items => Checked.all Nat.repr read items
  | _ => .fail .notList

/-- Reads a value that may be absent. -/
def orNull (read : Document → Checked α) : Document → Checked (Option α)
  | .null => .valid none
  | d => (read d).map some

/-! ## Readers of fields -/

/-- Reads a field that must be there. -/
def required (d : Document) (name : String) (read : Document → Checked α) : Checked α :=
  (match d.field? name with
    | some v => read v
    | none => .fail .missing).under name

/-- Reads a field that may be left out. -/
def optional (d : Document) (name : String) (default : α) (read : Document → Checked α) :
    Checked α :=
  match d.field? name with
  | some v => (read v).under name
  | none => .valid default

/-- Reads a record from its fields; anything but an object is no record. -/
def asRecord (read : Document → Checked α) : Document → Checked α
  | .object fields => read (.object fields)
  | .mixed fields => read (.mixed fields)
  | _ => .fail .notRecord

/-- A record given by the values of its fields in order: those without a name are dropped,
    names without a value are left out. -/
def ofRow (names : List String) : Document → Document
  | .list items => .object (names.zip items)
  | d => d

end Document

end PrimaryEnergy
