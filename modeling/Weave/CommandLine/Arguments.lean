import Weave.Text.Search

/-!
# Arguments of the command line

The command line has global options, a subcommand, and the options and operands of that. Options are
written long, or short in clusters; a value follows after an equals sign, in the same argument or in
the next one. A value is settled when the next argument has been recognised, so that the first fault
in that order is reported.

## Main definitions

* `Weave.Parameter`, `Weave.CommandLevel`: what a level of the command line takes.
* `Weave.UsageFault`: what can be wrong with it.
* `Weave.Arguments.readLevel`: reads one level.
-/

namespace Weave

/-- What can be wrong with a command line, and what it can ask for instead of a run. -/
inductive UsageFault where
  | unknownArgument
  | missingRequiredArgument
  | invalidSubcommand
  | invalidValue
  | tooManyValues
  | argumentConflict
  | displayHelp
  | displayVersion
  deriving Repr, DecidableEq

/-- What a parameter takes. -/
inductive ParameterKind where
  /-- Nothing; it is given or not. -/
  | switch
  /-- One value that is not empty. -/
  | path
  /-- A value each time it is given. -/
  | patterns
  | help
  | version
  deriving Repr, DecidableEq

/-- A parameter of the command line. -/
structure Parameter where
  name : String
  kind : ParameterKind
  short : Option Char := none
  long : Option String := none
  deriving Repr, DecidableEq

/-- Whether a parameter takes values. -/
def Parameter.takesValue (parameter : Parameter) : Bool :=
  parameter.kind = .path || parameter.kind = .patterns

/-- What a level of the command line takes. -/
structure CommandLevel where
  options : List Parameter
  operands : List Parameter := []
  /-- The names of the subcommands. -/
  subcommands : List String := []
  /-- The names of the operands that have to be given. -/
  required : List String := []

namespace Arguments

/-- The values that parameters have been given, in order. -/
abbrev Given := List (String × List Text)

/-- How far a level has been read. -/
structure Progress where
  given : Given := []
  /-- A parameter that has been recognised and whose values are not settled yet. -/
  pending : Option (Parameter × List Text) := none
  /-- The number of operands so far. -/
  count : Nat := 0
  /-- Whether only operands can follow. -/
  onlyOperands : Bool := false
  /-- Whether the pending parameter takes the next argument. -/
  awaiting : Bool := false

/-- A function that can find a fault. -/
abbrev Checked := Except UsageFault

/-- Settles the values of a parameter. -/
def settle (parameter : Parameter) (values : List Text) (progress : Progress) : Checked Progress :=
  if parameter.takesValue && values.isEmpty then .error .invalidValue
  else
    let known := (progress.given.lookup parameter.name).isSome
    match parameter.kind with
    | .help => .error .displayHelp
    | .version => .error .displayVersion
    | .patterns =>
      let values := (progress.given.lookup parameter.name).getD [] ++ values
      let others := progress.given.filter fun (name, _) ↦ name ≠ parameter.name
      .ok { progress with given := others ++ [(parameter.name, values)] }
    | .switch | .path =>
      if known then .error .argumentConflict
      else if values.any List.isEmpty then .error .invalidValue
      else .ok { progress with given := progress.given ++ [(parameter.name, values)] }

/-- Settles what is pending. -/
def resolve (progress : Progress) : Checked Progress :=
  match progress.pending with
  | none => .ok progress
  | some (parameter, values) => settle parameter values { progress with pending := none }

/-- Settles what is pending and then a parameter with its values. -/
def accept (parameter : Parameter) (values : List Text) (progress : Progress) :
    Checked Progress := do
  settle parameter values { ← resolve progress with awaiting := false }

/-- Takes a parameter that is followed by its value, if that has not come with it. -/
def acceptOption (parameter : Parameter) (attached : Option Text) (progress : Progress) :
    Checked Progress := do
  match attached with
  | some value => accept parameter [value] progress
  | none => return { ← resolve progress with pending := some (parameter, []), awaiting := true }

/-- Takes a long option. -/
def acceptLong (level : CommandLevel) (argument : Text) (progress : Progress) : Checked Progress :=
  let (name, attached) :=
    match Text.splitOnce? (· = '=') argument with
    | some (name, value) => (name, some value)
    | none => (argument, none)
  match level.options.find? fun option ↦ option.long.map String.toList = some name with
  | none => .error .unknownArgument
  | some option =>
    if option.takesValue then acceptOption option attached progress
    else if attached.isSome then .error .tooManyValues
    else accept option [] progress

/-- Takes a cluster of short options. The first of them that takes a value takes the rest of the
cluster. -/
def acceptShort (level : CommandLevel) : Text → Progress → Checked Progress
  | [], progress => .ok progress
  | c :: cs, progress =>
    match level.options.find? fun option ↦ option.short = some c with
    | none => .error .unknownArgument
    | some option =>
      if option.takesValue then
        let attached :=
          match cs with
          | [] => none
          | '=' :: value => some value
          | value => some value
        acceptOption option attached progress
      else do acceptShort level cs (← accept option [] progress)

/-- Takes an operand. -/
def acceptOperand (level : CommandLevel) (argument : Text) (progress : Progress) :
    Checked Progress := do
  match level.operands[progress.count]? with
  | some parameter =>
    return { ← resolve progress with
      pending := some (parameter, [argument]), count := progress.count + 1, awaiting := false }
  | none =>
    let subcommand := level.subcommands.any fun name ↦ name.toList = argument
    if level.subcommands.isEmpty || (progress.onlyOperands && subcommand) then
      throw .unknownArgument
    else throw .invalidSubcommand

/-- Reads the arguments of a level up to the subcommand, which comes with the arguments after it. -/
def readLevel (level : CommandLevel) : List Text → Progress →
    Checked (Progress × Option (String × List Text))
  | [], progress => .ok (progress, none)
  | argument :: rest, progress =>
    if progress.onlyOperands then do readLevel level rest (← acceptOperand level argument progress)
    else
      match if progress.awaiting then none
          else level.subcommands.find? fun name ↦ name.toList = argument with
      | some name => .ok (progress, some (name, rest))
      | none =>
        match argument with
        | ['-', '-'] =>
          readLevel level rest { progress with onlyOperands := true, awaiting := false }
        | '-' :: '-' :: name => do readLevel level rest (← acceptLong level name progress)
        | '-' :: c :: cs => do readLevel level rest (← acceptShort level (c :: cs) progress)
        | _ =>
          match if progress.awaiting then progress.pending else none with
          | some (parameter, values) =>
            readLevel level rest
              { progress with pending := some (parameter, values ++ [argument]), awaiting := false }
          | none => do readLevel level rest (← acceptOperand level argument progress)

/-- Settles what is pending at the end of a level and checks that nothing is missing. -/
def finish (level : CommandLevel) (progress : Progress) : Checked Given := do
  let progress ← resolve progress
  if level.required.all fun name ↦ (progress.given.lookup name).isSome then return progress.given
  else throw .missingRequiredArgument

/-- Whether a switch is given. -/
def has (given : Given) (name : String) : Bool := (given.lookup name).isSome

/-- The value of a parameter. -/
def value? (given : Given) (name : String) : Option Text := (given.lookup name).bind List.head?

end Arguments

end Weave
