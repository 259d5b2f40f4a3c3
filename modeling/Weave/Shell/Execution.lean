import Weave.Shell.Builtin

/-!
# Running commands

A command is run for its status. What its parts do is given by two functions: one that runs the
commands within it, and one that starts programs.

## Main definitions

* `Weave.Shell.Start`: how programs are started.
* `Weave.Shell.Execution.step`: what a command does.
* `Weave.Shell.Execution.run`: commands nested up to a bound.
* `Weave.Shell.Execution.input`: all commands of the standard input.
-/

namespace Weave.Shell

/-- Starts a program, found by its name, with its arguments. The result is its status, or why it
cannot be started. -/
abbrev Start := Inheritance → (name : Octets) → (args : List Octets) → Proc (Except FileFault Nat)

namespace Execution

/-! ### Redirections -/

/-- Opens a file as a redirection says. -/
def openFile (dir : List Text) (path : Text) : Opening → Proc (Except FileFault Nat)
  | .read => Kernel.openRead dir path
  | .write => Kernel.openWrite dir path true false
  | .append => Kernel.openWrite dir path false true
  | .update => Kernel.openWrite dir path false false

/-- Makes a redirection; the outcome may be why it cannot be made. -/
def redirect (run : Inner) : Redirection → Action (Except Octets Unit)
  | .file descriptor opening target => do
    let target ← Expansion.text run target
    let state ← get
    match ← proc (openFile state.dir (Octets.toText target) opening) with
    | .ok stream =>
      modify (·.redirect descriptor stream)
      return .ok ()
    | .error fault =>
      let reading := opening = .read
      let reason :=
        if fault = .notFound then
          if reading then "No such file".toList else "Directory nonexistent".toList
        else Octets.ofText fault.label
      let action := if reading then "cannot open " else "cannot create "
      return .error (action.toList ++ target ++ ": ".toList ++ reason)
  | .copy descriptor source => do
    let source ← Expansion.text run source
    let state ← get
    if source = ['-'] then
      set { state with
        descriptors := state.descriptors.filter fun (d, _) ↦ d ≠ descriptor }
      return .ok ()
    else
      match (Octets.toNat? source).bind fun n ↦ state.descriptors.lookup n with
      | some stream =>
        modify (·.redirect descriptor stream)
        return .ok ()
      | none => return .error (source ++ ": Bad file descriptor".toList)
  | .document descriptor body => do
    let body ← Expansion.text run body
    let stream ← proc (Kernel.addStream (.source body false))
    modify (·.redirect descriptor stream)
    return .ok ()

/-- Makes redirections in order, up to the first that cannot be made. -/
def redirectAll (run : Inner) : List Redirection → Action (Except Octets Unit)
  | [] => return .ok ()
  | change :: rest => do
    match ← redirect run change with
    | .ok () => redirectAll run rest
    | .error message => return .error message

/-- Runs an action after redirections, which are undone at its end. -/
def withRedirections (run : Inner) (changes : List Redirection) (action : Action Nat) :
    Action Nat := do
  let before := (← get).descriptors
  let outcome ← attempt do
    match ← redirectAll run changes with
    | .ok () => action
    | .error message =>
      complain message
      return 2
  modify ({ · with descriptors := before })
  goOn outcome

/-! ### Input -/

/-- Runs the commands of the standard input, each as soon as its last line has been read. -/
def input (run : Inner) : Action Nat := do
  let _ ← iterate patience (fun (pending : Octets) ↦ do
    match (← get).descriptors.lookup 0 with
    | none => return Sum.inr ()
    | some stream =>
      let line ← proc (Kernel.readLine stream)
      let octets := pending ++ line
      let final := line.getLast? ≠ some '\n'
      match Grammar.complete.run ⟨octets, final⟩ with
      | .error (.unexpected what) => fail (Fault.unexpected what).message
      | .error (.unfinished what) =>
        if final then fail (Fault.unfinished what).message else return Sum.inl octets
      | .ok (found, _) =>
        match found with
        | some command =>
          let status ← run command
          modify ({ · with status })
        | none => pure ()
        modify fun state ↦ { state with line := state.line + octets.count '\n' }
        return if final then Sum.inr () else Sum.inl []) []
  return (← get).status

/-! ### Simple commands -/

/-- Whether a part of a word runs a command. -/
def isOutput : Part → Bool
  | .output .. => true
  | _ => false

/-- Gives variables the values of expanded words. -/
def assignAll (run : Inner) : List (Octets × Word) → Action Unit
  | [] => return ()
  | (name, value) :: rest => do
    assign name (← Expansion.text run value)
    assignAll run rest

/-- Runs an action with assignments that are undone at its end. -/
def withAssignments (run : Inner) (assignments : List (Octets × Word)) (exported : Bool)
    (action : Action Nat) : Action Nat := do
  if assignments.isEmpty then action
  else
    let names := assignments.map Prod.fst
    let old := names.map fun name ↦ (name, ·)
    let before := (← get).bindings
    assignAll run assignments
    if exported then
      names.forM fun name ↦ modify fun state ↦ state.mark name ({ · with exported := true })
    let outcome ← attempt action
    modify fun state ↦
      let kept := state.bindings.filter fun (name, _) ↦ !names.contains name
      { state with
        bindings := kept ++ (old.zip names).filterMap fun (pair, name) ↦
          (before.lookup name).map pair }
    goOn outcome

/-- Runs the body of a function with positional parameters of its own. -/
def callFunction (run : Inner) (body : Command) (args : List Octets) : Action Nat := do
  let before ← get
  modify ({ · with positional := args, loops := 0, inFunction := true, saved := [] })
  let outcome ← attempt (run body)
  modify fun state ↦
    let bindings := state.saved.foldl (fun bindings (name, old) ↦
      match old with
      | some v => State.put bindings name v
      | none => bindings.filter fun (n, _) ↦ n ≠ name) state.bindings
    { state with
      positional := before.positional, loops := before.loops, inFunction := before.inFunction
      saved := before.saved, bindings }
  match outcome with
  | .ok status => return status
  | .error (.leaveFunction status) => return status
  | .error escape => throw escape

/-- Starts a program and returns its status, or a status that says why it cannot be started. -/
def startProgram (start : Start) (name : Octets) (args : List Octets) : Action Nat := do
  match ← proc (start (← get).inheritance name args) with
  | .ok status =>
    receiveSent
    return status
  | .error fault =>
    let reason := if fault = .notFound then "not found".toList else Octets.ofText fault.label
    complain (name ++ ": ".toList ++ reason)
    return if fault = .notFound then 127 else 126

/-- Whether a name is that of a command of the shell that is not a special one. -/
def isOrdinary (name : Octets) : Bool :=
  (Builtin.find? name).isSome || ["command".toList, "type".toList].contains name

/-- The path of a file that is looked for along the search path. -/
def searched? (name : Octets) : Action (Option Octets) := do
  let state ← get
  let tree ← proc Kernel.files
  let dirs := Text.splitWhere (· = ':') ((state.lookup "PATH".toList).getD [])
  return (dirs.map fun dir ↦ dir ++ '/' :: name).find? fun path ↦
    tree.isFile state.dir (Octets.toText path)

/-- The path of a program that a shell starts by a name. -/
def programPath? (name : Octets) : Action (Option Octets) := do
  let state ← get
  let tree ← proc Kernel.files
  if !name.contains '/' then searched? name
  else return if tree.isFile state.dir (Octets.toText name) then some name else none

/-- How a command name is understood: in words, or as what can be run. -/
def describe (brief : Bool) (name : Octets) : Action Nat := do
  let state ← get
  let say (words : String) : Action Nat := do
    print (if brief then name ++ ['\n'] else name ++ words.toList ++ ['\n'])
    return 0
  if Grammar.reservedWords.contains name then say " is a shell keyword"
  else if (state.functions.lookup name).isSome then say " is a shell function"
  else if Builtin.isSpecial name then say " is a special shell builtin"
  else if isOrdinary name then say " is a shell builtin"
  else
    match ← programPath? name with
    | some path =>
      print (if brief then path ++ ['\n'] else name ++ " is ".toList ++ path ++ ['\n'])
      return 0
    | none =>
      if !brief then print (name ++ ": not found\n".toList)
      return 127

/-- How command names are understood, each in turn. -/
def describeAll (brief : Bool) : List Octets → Action Nat
  | [] => return 0
  | name :: rest => do
    let status ← describe brief name
    let others ← describeAll brief rest
    return if status = 0 then others else status

/-- Runs the text of a file in this shell. -/
def sourceFile (run : Inner) (name : Octets) : Action Nat := do
  match ← if name.contains '/' then pure (some name) else searched? name with
  | none => fail (".: ".toList ++ name ++ ": not found".toList)
  | some path =>
    match (← proc Kernel.files).read (← get).dir (Octets.toText path) with
    | .ok content =>
      match ← attempt (Script.run run (Octets.ofBytes content)) with
      | .error (.leaveFunction status) => return status
      | outcome => goOn outcome
    | .error fault =>
      fail (".: cannot open ".toList ++ path ++ ": ".toList ++ Octets.ofText fault.label)

/-- Runs a command that has been expanded. -/
def dispatch (run : Inner) (start : Start) (functions : Bool) :
    Nat → List Octets → Action Nat
  | _, [] => return 0
  | 0, _ => return 1
  | bound + 1, name :: args => do
    let state ← get
    match if functions then state.functions.lookup name else none with
    | some body => callFunction run body args
    | none =>
      match String.ofList name with
      | "eval" => Script.run run (Text.joinWith [' '] args)
      | "exec" =>
        if args.isEmpty then return 0
        else throw (.replaced (← startProgram start (args.headD []) (args.drop 1)))
      | "." =>
        match args with
        | path :: _ => sourceFile run path
        | [] => return 0
      | "command" =>
        match args with
        | ['-', 'v'] :: names => describeAll true names
        | ['-', 'V'] :: names => describeAll false names
        | ['-', 'p'] :: args => dispatch run start false bound args
        | _ => dispatch run start false bound args
      | "type" => describeAll false args
      | _ =>
        match Builtin.find? name with
        | some builtin => builtin args
        | none => startProgram start name args

/-- Whether a name is that of a program: neither of a function nor of a command of the shell. -/
def isProgram (state : State) (name : Octets) : Bool :=
  (state.functions.lookup name).isNone && !Builtin.isSpecial name && !isOrdinary name

/-- Runs a simple command. -/
def simple (run : Inner) (start : Start) (assignments : List (Octets × Word)) (words : List Word)
    (changes : List Redirection) : Action Nat := do
  let fields ← Expansion.words run words
  match fields with
  | [] =>
    withRedirections run changes do
      assignAll run assignments
      let ran := assignments.any (fun (_, value) ↦ value.any isOutput) || words.any (·.any isOutput)
      let state ← get
      return if ran then state.substituted else 0
  | name :: _ =>
    let state ← get
    let special := Builtin.isSpecial name && (state.functions.lookup name).isNone
    let command := dispatch run start true fields.length fields
    if special && fields = ["exec".toList] then
      match ← redirectAll run changes with
      | .ok () => return 0
      | .error message => fail message
    else if special then
      assignAll run assignments
      withRedirections run changes command
    else
      withRedirections run changes
        (withAssignments run assignments (isProgram state name) command)

/-! ### Compound commands -/

/-- Notes a status, and ends the shell if failures that nobody looks at do so. -/
def checked (action : Action Nat) : Action Nat := do
  let status ← action
  modify ({ · with status })
  let state ← get
  if status ≠ 0 && state.options.has "errexit" && !state.tested then throw (.leave status)
  return status

/-- Runs the stages of a pipeline one after the other, each on what the one before it has printed.
-/
def pipeline (run : Inner) (source : Option Nat) : List Command → Action Nat
  | [] => return 0
  | stage :: rest => do
    let incoming (state : State) : State :=
      match source with
      | some stream => state.redirect 0 stream
      | none => state
    if rest.isEmpty then isolated run incoming (run stage)
    else
      let sink ← proc (Kernel.addStream (.sink []))
      let _ ← isolated run (fun state ↦ (incoming state).redirect 1 sink) (run stage)
      let printed ← proc (Kernel.written sink)
      let next ← proc (Kernel.addStream (.source printed false))
      pipeline run (some next) rest

/-- What a round of a loop comes to: the status with which the next one starts, or with which the
loop ends. -/
def roundOutcome : Except Escape Nat → Action (Nat ⊕ Nat)
  | .ok status => return .inl status
  | .error (.leaveLoops count) =>
    if count ≤ 1 then return .inr 0 else throw (.leaveLoops (count - 1))
  | .error (.nextRound count) => if count ≤ 1 then return .inl 0 else throw (.nextRound (count - 1))
  | .error escape => throw escape

/-- Runs an action within one loop more. -/
def inLoop {α : Type} (action : Action α) : Action (Except Escape α) := do
  modify fun state ↦ { state with loops := state.loops + 1 }
  let outcome ← attempt action
  modify fun state ↦ { state with loops := state.loops - 1 }
  return outcome

/-- Runs a body as long as a condition has an outcome. -/
def conditionLoop (run : Inner) (success : Bool) (condition body : Command) : Action Nat := do
  let status ← iterate patience (fun (status : Nat) ↦ do
    let outcome ← inLoop do
      let holds ← tested (run condition)
      if (holds = 0) = success then return some (← run body) else return none
    match outcome with
    | .ok none => return .inr status
    | .ok (some status) => return .inl status
    | .error escape => roundOutcome (.error escape)) 0
  return status.getD 0

/-- Runs a body for every item. -/
def itemLoop (run : Inner) (name : Octets) (body : Command) (status : Nat) :
    List Octets → Action Nat
  | [] => return status
  | item :: rest => do
    assign name item
    match ← roundOutcome (← inLoop (run body)) with
    | .inl status => itemLoop run name body status rest
    | .inr status => return status

/-- Runs the command of the first case that matches. -/
def choice (run : Inner) (subject : Octets) : List (List Word × Command) → Action Nat
  | [] => return 0
  | (patterns, body) :: rest => do
    let matched ← patterns.anyM fun pattern ↦ do
      return (Wildcard.ofGlyphs (← Expansion.glyphs run pattern)).isMatch subject
    if matched then run body else choice run subject rest

/-- What a command does, given what the commands within it do. -/
def step (start : Start) (run : Inner) : Command → Action Nat
  | .nothing => return (← get).status
  | .simple assignments words changes => do
    let status ← checked (simple run start assignments words changes)
    Script.runCaught run
    return status
  | .pipeline stages => checked (pipeline run none stages)
  | .negated command => do
    let status ← tested (run command)
    return if status = 0 then 1 else 0
  | .both first second => do
    let status ← tested (run first)
    modify ({ · with status })
    if status = 0 then run second else return status
  | .either first second => do
    let status ← tested (run first)
    modify ({ · with status })
    if status = 0 then return 0 else run second
  | .sequence first second => do
    let status ← run first
    modify ({ · with status })
    run second
  | .background command => do
    let stream ← proc (Kernel.addStream .null)
    let process ← proc Kernel.newProcess
    let status ← isolated run (·.redirect 0 stream) (run command)
    modify fun state ↦ { state with jobs := (process, status) :: state.jobs }
    return 0
  | .subshell command => checked (isolated run id (run command))
  | .branch condition body otherwise => do
    let status ← tested (run condition)
    modify ({ · with status })
    if status = 0 then run body
    else
      match otherwise with
      | .nothing => return 0
      | _ => run otherwise
  | .loop success condition body => conditionLoop run success condition body
  | .each name items body => do
    let items ← match items with
      | some words => Expansion.words run words
      | none => pure (← get).positional
    itemLoop run name body 0 items
  | .choice subject cases => do
    choice run (← Expansion.text run subject) cases
  | .define name body => do
    modify fun state ↦ { state with functions := State.put state.functions name body }
    return 0
  | .redirected command changes => withRedirections run changes (run command)

/-- Runs a command whose parts are nested at most as deep as the bound. -/
def run (start : Start) : Nat → Inner
  | 0 => fun _ ↦ fail "Maximum function recursion depth reached".toList
  | bound + 1 => fun command ↦ do
    if (← get).options.has "noexec" then return 0 else step start (run start bound) command

end Execution

end Weave.Shell
