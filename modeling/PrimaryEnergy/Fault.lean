/-
  Failures of runs.

  Each part of the library has its own type of failures; `Fault` puts them together,
  `Fault.message` is what a reader is told.
-/
import PrimaryEnergy.Document.Checked
import PrimaryEnergy.Document.Yaml.Word
import PrimaryEnergy.Factor.Completion
import PrimaryEnergy.Factor.Uniqueness
import PrimaryEnergy.Files.Tree
import PrimaryEnergy.Regulation.Basic
import PrimaryEnergy.Table.Text

namespace PrimaryEnergy

/-- A text that is not a word of an enumeration. -/
structure UnknownWord where
  /-- What the words are called. -/
  noun : String
  text : String
deriving DecidableEq, Repr

/-- What a reader is told about it. -/
def UnknownWord.message (e : UnknownWord) : String :=
  Text.quoted e.text ++ " is not a valid " ++ e.noun

/-- Reads a word. -/
def Token.parse {τ : Type} [Token τ] (s : String) : Except UnknownWord τ :=
  match Token.ofText? s with
  | some w => .ok w
  | none => .error ⟨Token.noun τ, s⟩

/-- Why a run fails. -/
inductive Fault where
  /-- A text is no number or no pair of numbers. -/
  | number (e : NumberFault)
  /-- A text is not a word of an enumeration. -/
  | word (e : UnknownWord)
  /-- A text is no table. -/
  | table (e : TableFault)
  /-- A table cannot be completed. -/
  | completion (e : CompletionFault)
  /-- The regulation does not know a location. -/
  | location (e : UnknownLocation)
  /-- Keys are repeated. -/
  | keys (e : DuplicatedKeys)
  /-- A document does not hold what is wanted. -/
  | document (e : DocumentFault)
  /-- A configuration file is no document. -/
  | yaml (e : YamlFault)
  /-- A file cannot be read or written. -/
  | file (e : FileFault)
  /-- There is no regulation file at the path. -/
  | noRegulation (path : Path)
  | noBundle (path : Path)
  /-- A bundle lacks a file with this name. -/
  | missingFile (name : String)
  /-- A bundle has neither a factor table nor a location. -/
  | noFactorFile
  /-- There is neither a factor table nor a location. -/
  | noFactors
deriving DecidableEq, Repr

/-- What a reader is told about it. -/
def Fault.message : Fault → String
  | number e => e.message
  | word e => e.message
  | table e => e.message
  | completion e => e.message
  | location e => e.message
  | keys e => e.message
  | document e => e.message
  | yaml e => e.message
  | file e => e.message
  | noRegulation path => "Regulatory configuration not found: " ++ path.text
  | noBundle path => "Bundle not found: " ++ path.text
  | missingFile name => "Missing required file: " ++ name
  | noFactorFile => "Missing factors.csv and no location set in run_config.yaml"
  | noFactors => "No weighting factors: set a location or provide a factor table"

end PrimaryEnergy
