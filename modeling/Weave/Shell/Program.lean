import Weave.Shell.Execution

/-!
# The shell as a program

A shell is given a command line, a file or its standard input to run.

## Main definitions

* `Weave.Shell.Launch`: what the arguments of a shell ask for.
* `Weave.Shell.process`: the shell as a program.
-/

namespace Weave.Shell

/-- Where a shell takes its commands from. -/
inductive Source where
  | input
  | text (octets : Octets)
  | file (path : Octets)
  /-- A command line was announced, but there is none. -/
  | missing

/-- What the arguments of a shell ask for. -/
structure Launch where
  options : Options := {}
  source : Source
  name : Octets
  positional : List Octets := []

/-- The options with those of some letters switched on or off. Other letters are passed over. -/
def switchKnown (on : Bool) (letters : Octets) (options : Options) : Options :=
  letters.foldl (fun options letter ↦
    (Options.ofLetter? letter).elim options (options.switch · on)) options

/-- What the arguments of a shell ask for. The letters `c` and `s` say where the commands come from;
other letters are options. -/
def Launch.read (name : Octets) (options : Options) (letters : Octets) :
    List Octets → Launch
  | ('-' :: '-' :: []) :: rest => operands rest
  | ('-' :: 'o' :: []) :: long :: rest =>
    read name ((Options.ofName? long).elim options (options.switch · true)) letters rest
  | ('-' :: c :: cs) :: rest =>
    read name (switchKnown true (c :: cs) options) (letters ++ c :: cs) rest
  | ('+' :: c :: cs) :: rest => read name (switchKnown false (c :: cs) options) letters rest
  | rest => operands rest
where
  /-- What is asked for by the arguments that are not options. -/
  operands : List Octets → Launch
    | [] =>
      if letters.contains 'c' then { options, source := .missing, name }
      else { options := options.switch "stdin" true, source := .input, name }
    | first :: rest =>
      if letters.contains 'c' then
        { options, source := .text first, name := rest.headD name, positional := rest.drop 1 }
      else if letters.contains 's' then
        { options, source := .input, name, positional := first :: rest }
      else { options, source := .file first, name := first, positional := rest }

/-- The state in which a shell starts. -/
def State.initial (inheritance : Inheritance) (process : Nat) (launch : Launch) : State :=
  let path := Octets.ofText (Path.ofNames inheritance.dir)
  let inherited : List (Octets × Variable) := inheritance.environment.map fun (name, value) ↦
    (name, { value := some value, exported := true })
  let own : List (Octets × Octets) :=
    [("IFS".toList, [' ', '\t', '\n']), ("OPTIND".toList, ['1']), ("PS1".toList, ['#', ' ']),
      ("PS2".toList, ['>', ' ']), ("PS4".toList, ['+', ' ']), ("PWD".toList, path),
      ("PPID".toList, Octets.ofNat inheritance.parent)]
  let start : State :=
    { name := launch.name
      positional := launch.positional
      bindings := inherited
      dir := inheritance.dir
      path
      descriptors := inheritance.descriptors
      process
      parent := inheritance.parent
      options := launch.options }
  own.foldl (fun state (name, value) ↦ state.assign name value) start

/-- Runs the commands that a shell was given. -/
def runSource (run : Inner) : Source → Action Nat
  | .input => Execution.input run
  | .text octets => Script.run run octets
  | .missing => do
    modify ({ · with line := 0 })
    fail "-c requires an argument".toList
  | .file path => do
    let state ← get
    match (← proc Kernel.files).read state.dir (Octets.toText path) with
    | .ok content => Script.run run (Octets.ofBytes content)
    | .error _ =>
      modify ({ · with line := 0 })
      fail ("cannot open ".toList ++ path ++ ": No such file".toList)

/-- How deep commands may be nested, calls of functions included. -/
def depth : Nat := 3000

/-- The shell as a program. -/
def process (start : Start) (inheritance : Inheritance) (name : Octets) (args : List Octets) :
    Proc Nat := do
  let launch := Launch.read name {} [] args
  let number ← Kernel.newProcess
  let state := State.initial inheritance number launch
  let run := Execution.run start depth
  let action := do Script.finish run (← attempt (runSource run launch.source))
  let (outcome, _) ← action.run.run state
  return Script.statusOf outcome

end Weave.Shell
