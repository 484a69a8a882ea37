/-
  Arguments of commands.

  An argument that starts with a hyphen is an option, unless it is a single hyphen.  An
  option with a value takes it after an equals sign or else from the next argument,
  whatever that is; a flag is set by its name and unset by its name after `no-`.  Options
  stand anywhere among the operands, up to two hyphens: what follows these are operands.
  Of an option that is given several times the last one counts.
-/
import PrimaryEnergy.Text.Lines

namespace PrimaryEnergy.CommandLine

/-- What a command accepts. -/
structure Signature where
  /-- The number of operands. -/
  operands : Nat
  /-- The options with a value. -/
  options : List String := []
  flags : List String := []
deriving DecidableEq, Repr

/-- What a command is given. -/
structure Arguments where
  operands : List String := []
  /-- The options and their values. -/
  options : List (String × String) := []
  /-- The flags and whether they are set or unset. -/
  flags : List (String × Bool) := []
deriving DecidableEq, Repr

/-- The last value under a name. -/
def lastOf {τ : Type} (entries : List (String × τ)) (name : String) : Option τ :=
  entries.reverse.lookup name

namespace Arguments

/-- The value of an option. -/
def option? (a : Arguments) (name : String) : Option String := lastOf a.options name

/-- Whether a flag is set. -/
def flag (a : Arguments) (name : String) : Bool := (lastOf a.flags name).getD false

end Arguments

/-- Whether an argument is an option. -/
def isOption (s : String) : Bool :=
  match s.toList with
  | '-' :: _ :: _ => true
  | _ => false

/-- An option and the value after its equals sign. -/
def splitOption (s : String) : String × Option String :=
  let (name, value) := Text.cut '=' s.toList
  (String.ofList name, value.map String.ofList)

namespace Signature

/-- The option with a value that an argument names. -/
def option? (g : Signature) (arg : String) : Option String :=
  g.options.find? fun n => "--" ++ n == arg

/-- The flag that an argument names, and whether it sets it. -/
def flag? (g : Signature) (arg : String) : Option (String × Bool) :=
  g.flags.findSome? fun n =>
    if "--" ++ n == arg then some (n, true)
    else if "--no-" ++ n == arg then some (n, false)
    else none

/-- Reads arguments; nothing if they are not as the signature says. -/
def scan (g : Signature) : List String → Option Arguments
  | [] => some {}
  | arg :: rest =>
    if arg = "--" then some { operands := rest }
    else if isOption arg then
      match g.option? (splitOption arg).1, (splitOption arg).2 with
      | some n, some v => (g.scan rest).map fun a => { a with options := (n, v) :: a.options }
      | some n, none =>
        match rest with
        | v :: rest => (g.scan rest).map fun a => { a with options := (n, v) :: a.options }
        | [] => none
      | none, _ =>
        match g.flag? arg with
        | some f => (g.scan rest).map fun a => { a with flags := f :: a.flags }
        | none => none
    else (g.scan rest).map fun a => { a with operands := arg :: a.operands }

/-- Reads arguments with the right number of operands. -/
def read (g : Signature) (args : List String) : Option Arguments :=
  (g.scan args).filter fun a => a.operands.length == g.operands

end Signature

end PrimaryEnergy.CommandLine
