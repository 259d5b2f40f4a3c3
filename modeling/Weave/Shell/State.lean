import Weave.Shell.Syntax
import Weave.Shell.Reader
import Weave.Shell.Signal
import Weave.System.Kernel

/-!
# The state of a shell

A shell has variables, functions, positional parameters, a working directory and open streams. What
it runs ends with a status, or escapes from the commands around it.

## Main definitions

* `Weave.Shell.State`, `Weave.Shell.Escape`, `Weave.Shell.Action`.
* `Weave.Shell.Options`: what the options of a shell switch on.
* `Weave.Shell.fail`: the end of a shell after an error.
-/

namespace Weave.Shell

/-- A variable, which may have attributes without having a value. -/
structure Variable where
  value : Option Octets := none
  exported : Bool := false
  readOnly : Bool := false
  deriving Repr, DecidableEq

/-- The options of a shell that are on, by name. -/
structure Options where
  on : List String := []
  deriving Repr, DecidableEq

namespace Options

/-- The options by name, each with its letter if it has one, in the order in which they are shown.
-/
def table : List (String × Option Char) :=
  [("errexit", some 'e'), ("noglob", some 'f'), ("ignoreeof", some 'I'), ("interactive", some 'i'),
    ("monitor", some 'm'), ("noexec", some 'n'), ("stdin", some 's'), ("xtrace", some 'x'),
    ("verbose", some 'v'), ("vi", some 'V'), ("emacs", some 'E'), ("noclobber", some 'C'),
    ("allexport", some 'a'), ("notify", some 'b'), ("nounset", some 'u'), ("nolog", none),
    ("debug", none)]

/-- Whether an option is on. -/
def has (options : Options) (name : String) : Bool := options.on.contains name

/-- The options with one of them switched on or off. -/
def switch (options : Options) (name : String) (on : Bool) : Options :=
  ⟨(if on then [name] else []) ++ options.on.filter (· ≠ name)⟩

/-- The option of a letter. -/
def ofLetter? (letter : Char) : Option String :=
  (table.find? fun (_, l) ↦ l = some letter).map Prod.fst

/-- The option of a long name. -/
def ofName? (name : Octets) : Option String :=
  (table.find? fun (n, _) ↦ n.toList = name).map Prod.fst

/-- The letters of the options that are on. -/
def letters (options : Options) : Octets :=
  table.filterMap fun (name, letter) ↦ if options.has name then letter else none

end Options

/-- The state of a shell. -/
structure State where
  name : Octets
  positional : List Octets := []
  bindings : List (Octets × Variable) := []
  functions : List (Octets × Command) := []
  /-- The place of the working directory. -/
  dir : List Text
  /-- The path by which the working directory was reached. -/
  path : Octets := []
  descriptors : List (Nat × Nat) := []
  status : Nat := 0
  process : Nat := 0
  /-- The number of the line that is being run. -/
  line : Nat := 1
  options : Options := {}
  /-- Whether a failure is looked at, so that it does not end the shell. -/
  tested : Bool := false
  /-- The number of loops around what is run, within the running function. -/
  loops : Nat := 0
  /-- Whether a function is running. -/
  inFunction : Bool := false
  /-- What is run when a signal arrives; nothing is run if it is empty. -/
  traps : List (Nat × Octets) := []
  /-- The signals that have arrived and whose traps have not been run yet, in order. -/
  caught : List Nat := []
  /-- Whether the shell is a copy of another one. -/
  isCopy : Bool := false
  /-- The number of the process that started this one. -/
  parent : Nat := 1
  /-- The status of the last command whose output was taken into a word. -/
  substituted : Nat := 0
  /-- The processes that were started in the background with their statuses, the latest first. -/
  jobs : List (Nat × Nat) := []
  /-- How many options of one argument have been read. -/
  optionOffset : Nat := 0
  /-- The permissions that new files do not get. -/
  mask : Nat := 18
  /-- The variables of the running function that have to be restored, with what they were. -/
  saved : List (Octets × Option Variable) := []

/-- How a command escapes from the commands around it. -/
inductive Escape where
  /-- The shell ends. -/
  | leave (status : Nat)
  /-- Another program has taken the place of the shell and has ended. -/
  | replaced (status : Nat)
  /-- The process is killed by a signal. -/
  | killed (signal : Nat)
  | leaveLoops (count : Nat)
  | nextRound (count : Nat)
  | leaveFunction (status : Nat)
  deriving Repr, DecidableEq

/-- What a shell does. -/
abbrev Action := ExceptT Escape (StateT State Proc)

namespace State

/-- Gives a key a value in a list of pairs; a new key comes last. -/
def put {α : Type} (pairs : List (Octets × α)) (key : Octets) (value : α) : List (Octets × α) :=
  if (pairs.lookup key).isSome then
    pairs.map fun (k, v) ↦ (k, if k = key then value else v)
  else pairs ++ [(key, value)]

/-- The value of a variable. -/
def lookup (state : State) (name : Octets) : Option Octets :=
  (state.bindings.lookup name).bind Variable.value

/-- The state with a value given to a variable. -/
def assign (state : State) (name value : Octets) : State :=
  let old := (state.bindings.lookup name).getD {}
  { state with bindings := put state.bindings name { old with value := some value } }

/-- The state with the attributes of a variable changed. -/
def mark (state : State) (name : Octets) (change : Variable → Variable) : State :=
  let old := (state.bindings.lookup name).getD {}
  { state with bindings := put state.bindings name (change old) }

/-- Whether a variable cannot be changed. -/
def isReadOnly (state : State) (name : Octets) : Bool :=
  ((state.bindings.lookup name).map Variable.readOnly).getD false

/-- The variables that are handed to the programs which a shell runs. -/
def environment (state : State) : List (Octets × Octets) :=
  state.bindings.filterMap fun (name, v) ↦ if v.exported then v.value.map ((name, ·)) else none

/-- What a program takes over from a shell. -/
def inheritance (state : State) : Inheritance :=
  { dir := state.dir
    environment := state.environment
    descriptors := state.descriptors
    parent := state.process }

end State

/-! ### Streams and messages -/

/-- Does what a process does. -/
def proc {α : Type} (p : Proc α) : Action α := monadLift (monadLift p : StateT State Proc α)

/-- Writes octets to the standard output. -/
def print (octets : Octets) : Action Unit := do
  proc ((← get).inheritance.print octets)

/-- Writes a message to the standard error, after the name of the shell and the line. -/
def complain (message : Octets) : Action Unit := do
  let state ← get
  proc (state.inheritance.complain
    (state.name ++ ": ".toList ++ Octets.ofNat state.line ++ ": ".toList ++ message))

/-- Ends the shell after an error. -/
def fail {α : Type} (message : Octets) : Action α := do
  complain message
  throw (.leave 2)

/-- The variable that counts the arguments whose options have been read. -/
def State.optionIndex : Octets := "OPTIND".toList

/-- Gives a variable a value, unless it cannot be changed. -/
def assign (name value : Octets) : Action Unit := do
  let state ← get
  if state.isReadOnly name then fail (name ++ ": is read only".toList)
  let exported := state.options.has "allexport"
  let state := (state.assign name value).mark name fun v ↦
    { v with exported := v.exported || exported }
  set (if name = State.optionIndex then { state with optionOffset := 0 } else state)

/-! ### Attempts -/

/-- What became of an action: its result or how it escaped. -/
def attempt {α : Type} (action : Action α) : Action (Except Escape α) := ExceptT.lift action.run

/-- Escapes as an action did, or goes on with its result. -/
def goOn {α : Type} : Except Escape α → Action α
  | .ok result => return result
  | .error escape => throw escape

/-- The descriptors with one of them changed. -/
def State.redirect (state : State) (descriptor stream : Nat) : State :=
  { state with
    descriptors := (descriptor, stream) :: state.descriptors.filter fun (d, _) ↦ d ≠ descriptor }

/-- Runs an action whose failure is looked at. -/
def tested {α : Type} (action : Action α) : Action α := do
  let before := (← get).tested
  modify ({ · with tested := true })
  let outcome ← attempt action
  modify ({ · with tested := before })
  goOn outcome

end Weave.Shell
