import BytecodeHost.Duration
import BytecodeHost.Number.Literal
import BytecodeHost.Text.Quoted

/-!
# Options of commands

Options stand before the other arguments of a command and start with one or two minus signs. A
value stands after an equals sign or in the next argument; a switch needs none. The first argument
that is no option, or `--`, ends the options.

## Main definitions

* `Options.parse`: reads options over their defaults and returns the other arguments.
-/

namespace BytecodeHost

namespace Options

/-- Why a value does not suit an option. -/
inductive ValueProblem where
  | malformed
  | outOfRange
  deriving DecidableEq

/-- The wording of a problem. -/
def ValueProblem.message : ValueProblem → String
  | malformed => "parse error"
  | outOfRange => "value out of range"

/-- Why options are refused. -/
inductive Error where
  /-- An argument has minus signs and no name. -/
  | badSyntax (arg : String)
  /-- There is no such option. -/
  | undefined (name : String)
  /-- The user asks for help. -/
  | help
  /-- An option has no value. -/
  | missingValue (name : String)
  /-- An option has a value that does not suit it. -/
  | invalidValue (name value : String) (problem : ValueProblem)
  /-- A switch has a value that is no truth value. -/
  | invalidSwitch (name value : String)
  deriving DecidableEq

/-- The wording of an error. -/
def Error.message : Error → String
  | badSyntax arg => "bad flag syntax: " ++ arg
  | undefined name => "flag provided but not defined: -" ++ name
  | help => "flag: help requested"
  | missingValue name => "flag needs an argument: -" ++ name
  | invalidValue name value problem =>
    "invalid value " ++ Text.quoted value ++ " for flag -" ++ name ++ ": " ++ problem.message
  | invalidSwitch name value =>
    "invalid boolean value " ++ Text.quoted value ++ " for -" ++ name ++ ": "
      ++ ValueProblem.malformed.message

/-- What an option does to settings. -/
inductive Action (α : Type) where
  /-- Takes a value. -/
  | value (set : α → String → Except ValueProblem α)
  /-- Takes no value, or a truth value after an equals sign. -/
  | switch (set : α → Bool → α)

/-! ## Values -/

/-- A natural number of 64 bits. -/
def readWord (s : String) : Except ValueProblem UInt64 :=
  match Literal.readNat (1 <<< 64) s.toList with
  | .ok n => .ok n.toUInt64
  | .error .malformed => .error .malformed
  | .error .outOfRange => .error .outOfRange

/-- A duration. -/
def readDuration (s : String) : Except ValueProblem Int :=
  match Duration.parse? s with
  | some d => .ok d
  | none => .error .malformed

/-- A truth value. -/
def readSwitch? (s : String) : Option Bool :=
  if ["1", "t", "T", "TRUE", "true", "True"].contains s then some true
  else if ["0", "f", "F", "FALSE", "false", "False"].contains s then some false
  else none

/-! ## Arguments -/

/-- What an argument is when an option may come. -/
inductive Argument where
  /-- No option. -/
  | other
  /-- The mark after which no option comes. -/
  | endMark
  /-- Minus signs without a name. -/
  | malformed
  /-- An option with its name and the value after an equals sign. -/
  | option (name : String) (value : Option String)

/-- An option without its minus signs. -/
def splitName (s : List Char) : Argument :=
  if s.head? = none ∨ s.head? = some '-' ∨ s.head? = some '=' then .malformed
  else
    match s.span (· ≠ '=') with
    | (name, []) => .option (String.ofList name) none
    | (name, _ :: value) => .option (String.ofList name) (some (String.ofList value))

/-- What an argument is when an option may come. -/
def classify (arg : String) : Argument :=
  match arg.toList with
  | ['-', '-'] => .endMark
  | '-' :: '-' :: s => splitName s
  | '-' :: c :: s => splitName (c :: s)
  | _ => .other

/-- Reads options over settings. -/
def parse {α : Type} (options : List (String × Action α)) :
    α → List String → Except Error (α × List String)
  | a, [] => .ok (a, [])
  | a, arg :: rest =>
    match classify arg with
    | .other => .ok (a, arg :: rest)
    | .endMark => .ok (a, rest)
    | .malformed => .error (.badSyntax arg)
    | .option name given =>
      match options.lookup name, given with
      | none, _ => .error (if name = "help" ∨ name = "h" then .help else .undefined name)
      | some (.switch set), none => parse options (set a true) rest
      | some (.switch set), some v =>
        match readSwitch? v with
        | some b => parse options (set a b) rest
        | none => .error (.invalidSwitch name v)
      | some (.value set), some v =>
        match set a v with
        | .ok a => parse options a rest
        | .error p => .error (.invalidValue name v p)
      | some (.value set), none =>
        match rest with
        | [] => .error (.missingValue name)
        | v :: rest =>
          match set a v with
          | .ok a => parse options a rest
          | .error p => .error (.invalidValue name v p)

end Options

end BytecodeHost
