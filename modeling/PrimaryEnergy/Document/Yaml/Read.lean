/-
  Documents read from YAML texts.

  Of a repeated name the last value counts.  An object may take over the fields of other
  objects; its own fields go first.

  `Yaml.read` reads a text: first its structure (`tree?`), then what its parts mean
  (`ofNode`).

  Not every YAML text is read.  These are refused, or read in a way of their own:

  * tags of sets, of ordered objects and pairs and of binary data, and tags of one's own;
  * a tag of a word on another word than one with such a value: a real number that is asked
    for needs a point or an exponent, and no value one of the words for it;
  * an alias inside of what its anchor marks;
  * codes of surrogates, two of which are read as the character that they make up, while others
    are refused.

  Settings that bundles are written with have none of these.  What is stated of bundles depends
  on this function through the document that it returns, and on nothing else of it.
-/
import PrimaryEnergy.Document.Yaml.Node
import PrimaryEnergy.Document.Yaml.Word

namespace PrimaryEnergy.Document.Yaml

/-! ## Scalars -/

/-- The tags of the values that words can stand for. -/
def wordTag : Document → Option String
  | .null => some "tag:yaml.org,2002:null"
  | .bool _ => some "tag:yaml.org,2002:bool"
  | .int _ => some "tag:yaml.org,2002:int"
  | .real _ => some "tag:yaml.org,2002:float"
  | .moment _ => some "tag:yaml.org,2002:timestamp"
  | _ => none

def textTag : String := "tag:yaml.org,2002:str"

def listTag : String := "tag:yaml.org,2002:seq"

def objectTag : String := "tag:yaml.org,2002:map"

/-- What a scalar stands for.  A tag other than that of texts asks for a word with such a
    value. -/
def scalarMeaning (tag : Option String) (isPlain : Bool) (s : List Char) : Formed Document :=
  match tag with
  | none => if isPlain then meaning s else .ok (.text (String.ofList s))
  | some t =>
    if t = textTag then .ok (.text (String.ofList s))
    else
      match meaning s with
      | .ok d => if wordTag d = some t then .ok d else .error .malformed
      | .error e => .error e

/-! ## Objects -/

/-- What a field adds to an object. -/
inductive Entry where
  /-- A value under a text. -/
  | named (name : String) (d : Document)
  /-- A value under something else. -/
  | other
  /-- The fields of other objects, some of which may have more than those. -/
  | merged (fields : List (String × Document)) (areMixed : Bool)

namespace Entry

/-- The fields that are taken over from other objects. -/
def mergedFields : Entry → List (String × Document)
  | merged fields _ => fields
  | _ => []

/-- The field with a text for a name. -/
def ownFields : Entry → List (String × Document)
  | named k d => [(k, d)]
  | _ => []

/-- Whether there are names that are no texts. -/
def isMixed : Entry → Bool
  | other | merged _ true => true
  | _ => false

/-- The object with these entries; its own fields count more than those it takes over. -/
def toDocument (es : List Entry) : Document :=
  let fields := distinctFields (es.flatMap mergedFields ++ es.flatMap ownFields)
  if es.any isMixed then .mixed fields else .object fields

/-- The value under a name, which may be a list or an object itself in no case. -/
def under (name d : Document) : Formed Entry :=
  match name with
  | .text k => .ok (named k d)
  | .list _ | .object _ | .mixed _ => .error .malformed
  | _ => .ok other

/-- The fields of an object, or of several, of which the first ones count most. -/
def taken : Document → Formed Entry
  | .object fields => .ok (merged fields false)
  | .mixed fields => .ok (merged fields true)
  | .list ds => do
    let each ← ds.reverse.mapM fun d => match d with
      | .object fields => (.ok (fields, false) : Formed _)
      | .mixed fields => .ok (fields, true)
      | _ => .error .malformed
    return merged (each.flatMap (·.1)) (each.any (·.2))
  | _ => .error .malformed

end Entry

/-- The word of a plain scalar without a tag. -/
def Node.word? : Node → Option String
  | .scalar none true s => some (String.ofList s)
  | _ => none

/-! ## Whole texts -/

mutual

/-- What a node stands for. -/
def ofNode : Node → Formed Document
  | .scalar tag isPlain s => scalarMeaning tag isPlain s
  | .list tag items => do
    let ds ← ofItems items
    if tag.all (· = listTag) then return .list ds else throw .malformed
  | .fields tag entries => do
    let es ← ofEntries entries
    if tag.all (· = objectTag) then return Entry.toDocument es else throw .malformed

/-- What the items of a list stand for. -/
def ofItems : List Node → Formed (List Document)
  | [] => .ok []
  | n :: ns => do
    let d ← ofNode n
    let ds ← ofItems ns
    return d :: ds

/-- What a field adds. -/
def ofEntry : Node × Node → Formed Entry
  | (k, v) => do
    if k.word? = some mergeWord then Entry.taken (← ofNode v)
    else
      let name ← if k.word? = some defaultWord then .ok (.text defaultWord) else ofNode k
      Entry.under name (← ofNode v)

/-- What the fields of an object add. -/
def ofEntries : List (Node × Node) → Formed (List Entry)
  | [] => .ok []
  | n :: ns => do
    let e ← ofEntry n
    let es ← ofEntries ns
    return e :: es

end

/-- Reads a text. -/
def read (s : String) : Formed Document :=
  match ((glyphs? s.toList).bind lexemes?).bind tree? with
  | some n => ofNode n
  | none => .error .malformed

end PrimaryEnergy.Document.Yaml
