/-
  The structure of YAML texts.

  A node is a scalar, a list or a collection of fields, each perhaps with a tag; a node that
  is labelled can be repeated by its label further on.

  `tree?` reads the one document of a text from its lexemes.
-/
import PrimaryEnergy.Document.Yaml.Lexeme

namespace PrimaryEnergy.Document.Yaml

/-- A part of a document. -/
inductive Node where
  /-- A scalar; its text has a meaning if it is plain, unless there is a tag. -/
  | scalar (tag : Option String) (isPlain : Bool) (text : List Char)
  | list (tag : Option String) (items : List Node)
  /-- Names and values. -/
  | fields (tag : Option String) (entries : List (Node × Node))

namespace Node

/-- What is left out: a scalar without text. -/
def absent : Node := scalar none true []

end Node

/-! ## Reading -/

/-- How far the lexemes are read. -/
structure Progress where
  /-- The lexemes that follow. -/
  rest : List Lexeme
  /-- What the handles in front of tags stand for. -/
  handles : List (String × String)
  /-- The labels so far, the last one first; a node without an end has no value yet. -/
  labels : List (String × Option Node) := []

/-- Reads a part of a document from the lexemes. -/
abbrev Reader := StateT Progress Option

namespace Reader

/-- The next lexeme, which is left where it is. -/
def peek : Reader (Option Lexeme) := do return (← get).rest.head?

/-- Whether the next lexeme is one of these. -/
def isAt (ls : List Lexeme) : Reader Bool := do return (← peek).any ls.contains

/-- Drops the next lexeme. -/
def skip : Reader Unit := modify fun s => { s with rest := s.rest.drop 1 }

/-- Remembers a node under a label, if there is one. -/
def remember (label : Option String) (d : Option Node) : Reader Unit :=
  match label with
  | some l => modify fun s => { s with labels := (l, d) :: s.labels }
  | none => pure ()

def labelled (label : String) : Reader Node := do
  match ((← get).labels.lookup label).join with
  | some d => pure d
  | none => failure

/-- Reads a label, which must be new, if there is one. -/
def label? : Reader (Option String) := do
  match ← peek with
  | some (.label l) =>
    guard !((← get).labels.any (·.1 = l))
    skip
    return some l
  | _ => return none

/-- Reads a tag in full, if there is one. -/
def tag? : Reader (Option String) := do
  match ← peek with
  | some (.tag none suffix) =>
    skip
    return some suffix
  | some (.tag (some h) suffix) =>
    skip
    match (← get).handles.lookup h with
    | some p => return some (p ++ suffix)
    | none => failure
  | _ => return none

/-- Reads a label and a tag, in either order. -/
def properties : Reader (Option String × Option String) := do
  match ← label? with
  | some l => return (some l, ← tag?)
  | none =>
    let tag ← tag?
    return (← label?, tag)

end Reader

/-- The tag that leaves it to the form of a node what it is. -/
def openTag : String := "!"

/-- The tag of a node, unless that is left open. -/
def ownTag (tag : Option String) : Option String := tag.filter (· ≠ openTag)

/-- The scalar with a tag; with the open tag its text has a meaning even in quotes. -/
def scalarNode (tag : Option String) (isPlain : Bool) (text : List Char) : Node :=
  .scalar (ownTag tag) (isPlain || tag = some openTag) text

/-- A node of which only label and tag are given. -/
def bareNode (label tag : Option String) : Reader Node :=
  if label.isSome || tag.isSome then pure (scalarNode tag (ownTag tag).isNone []) else failure

open Reader

mutual

/-- Reads a node.  Indented collections may only stand outside of brackets (`inBlock`);
    directly under a name, the items of a list need not be indented (`underName`). -/
def readNode (inBlock underName : Bool) : Nat → Reader Node
  | 0 => failure
  | n + 1 => do
    match ← peek with
    | some (.labelled l) =>
      skip
      labelled l
    | _ =>
      let (label, tag) ← properties
      remember label none
      let d ← readContent inBlock underName label tag n
      remember label (some d)
      return d

/-- Reads what follows label and tag of a node. -/
def readContent (inBlock underName : Bool) (label tag : Option String) : Nat → Reader Node
  | 0 => failure
  | n + 1 => do
    match ← peek with
    | some (.scalar isPlain t) =>
      skip
      return scalarNode tag isPlain t
    | some .openList =>
      skip
      return .list (ownTag tag) (← flowItems true n)
    | some .openFields =>
      skip
      return .fields (ownTag tag) (← flowFields true n)
    | some .item =>
      if underName then return .list (ownTag tag) (← looseItems n) else bareNode label tag
    | some .listStart =>
      if inBlock then
        skip
        return .list (ownTag tag) (← blockItems n)
      else bareNode label tag
    | some .fieldsStart =>
      if inBlock then
        skip
        return .fields (ownTag tag) (← blockFields n)
      else bareNode label tag
    | _ => bareNode label tag

/-- Reads the items of an indented list. -/
def blockItems : Nat → Reader (List Node)
  | 0 => failure
  | n + 1 => do
    match ← peek with
    | some .blockEnd =>
      skip
      return []
    | some .item =>
      skip
      let d ← nodeOrAbsent true false [.item, .blockEnd] n
      return d :: (← blockItems n)
    | _ => failure

/-- Reads the items of a list that is not indented. -/
def looseItems : Nat → Reader (List Node)
  | 0 => failure
  | n + 1 => do
    match ← peek with
    | some .item =>
      skip
      let d ← nodeOrAbsent true false [.item, .name, .value, .blockEnd] n
      return d :: (← looseItems n)
    | _ => return []

/-- Reads indented fields. -/
def blockFields : Nat → Reader (List (Node × Node))
  | 0 => failure
  | n + 1 => do
    match ← peek with
    | some .blockEnd =>
      skip
      return []
    | some .name =>
      skip
      let k ← nodeOrAbsent true true [.name, .value, .blockEnd] n
      let d ← valueOrAbsent true [.name, .value, .blockEnd] n
      return (k, d) :: (← blockFields n)
    | _ => failure

/-- Reads the items of a list up to its bracket.  A field among them is an item of its own. -/
def flowItems (isFirst : Bool) : Nat → Reader (List Node)
  | 0 => failure
  | n + 1 => do
    if ← isAt [.closeList] then
      skip
      return []
    unless isFirst do
      guard (← isAt [.comma])
      skip
    match ← peek with
    | some .closeList =>
      skip
      return []
    | some .name =>
      skip
      let k ← nodeOrAbsent false false [.value, .comma, .closeList] n
      let d ← valueOrAbsent false [.comma, .closeList] n
      return .fields none [(k, d)] :: (← flowItems false n)
    | _ =>
      let d ← readNode false false n
      return d :: (← flowItems false n)

/-- Reads fields up to their brace. -/
def flowFields (isFirst : Bool) : Nat → Reader (List (Node × Node))
  | 0 => failure
  | n + 1 => do
    if ← isAt [.closeFields] then
      skip
      return []
    unless isFirst do
      guard (← isAt [.comma])
      skip
    match ← peek with
    | some .closeFields =>
      skip
      return []
    | some .name =>
      skip
      let k ← nodeOrAbsent false false [.value, .comma, .closeFields] n
      let d ← valueOrAbsent false [.comma, .closeFields] n
      return (k, d) :: (← flowFields false n)
    | _ =>
      let k ← readNode false false n
      return (k, .absent) :: (← flowFields false n)

/-- Reads the value after a name; it may be left out, with its mark or without. -/
def valueOrAbsent (inBlock : Bool) (ends : List Lexeme) : Nat → Reader Node
  | 0 => failure
  | n + 1 => do
    if ← isAt [.value] then
      skip
      nodeOrAbsent inBlock inBlock ends n
    else return .absent

/-- Reads a node, unless one of these lexemes follows. -/
def nodeOrAbsent (inBlock underName : Bool) (ends : List Lexeme) : Nat → Reader Node
  | 0 => failure
  | n + 1 => do if ← isAt ends then return .absent else readNode inBlock underName n

end

/-! ## Documents -/

/-- The handles that need no directive. -/
def usualHandles : List (String × String) := [("!", "!"), ("!!", "tag:yaml.org,2002:")]

/-- The directives in front of a document. -/
def directives : List Lexeme → List Directive × List Lexeme
  | .directive d :: r =>
    let (ds, rest) := directives r
    (d :: ds, rest)
  | r => ([], r)

/-- What the handles stand for after directives, of which those about the version must be one
    at most, and for version 1. -/
def handlesOf? (ds : List Directive) : Option (List (String × String)) := do
  let versions := ds.filterMap fun d => match d with
    | .version major => some major
    | _ => none
  let handles := ds.filterMap fun d => match d with
    | .handle name stands => some (name, stands)
    | _ => none
  guard (versions = [] ∨ versions = [1])
  guard (handles.map (·.1)).Nodup
  return handles ++ usualHandles

/-- Whether a document is left out before these lexemes. -/
def endsDocument : List Lexeme → Bool
  | [] | .documentStart :: _ | .documentEnd :: _ | .directive _ :: _ => true
  | _ => false

/-- Reads a document and the end of the text after it. -/
def lastNode? (handles : List (String × String)) (ls : List Lexeme) : Option Node :=
  let read := if endsDocument ls then pure .absent else readNode true false (4 * ls.length + 4)
  match read.run ⟨ls, handles, []⟩ with
  | some (d, s) => if s.rest.all (· = .documentEnd) then some d else none
  | none => none

/-- Reads the lexemes of a text with one document; a text may also be empty. -/
def tree? (ls : List Lexeme) : Option Node :=
  match directives ls with
  | ([], []) => some .absent
  | ([], .documentEnd :: _) => none
  | ([], .documentStart :: r) => lastNode? usualHandles r
  | ([], r) => lastNode? usualHandles r
  | (ds, .documentStart :: r) => (handlesOf? ds).bind fun handles => lastNode? handles r
  | _ => none

end PrimaryEnergy.Document.Yaml
