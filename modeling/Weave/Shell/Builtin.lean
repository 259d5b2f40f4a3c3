import Weave.Shell.Condition
import Weave.Shell.Expansion
import Weave.Shell.Format

/-!
# Built-in commands

The commands that a shell runs itself because they read or change its own state. Some of them are
special: an error in one ends the shell.

## Main definitions

* `Weave.Shell.Builtin.find?`: the built-in command of a name.
* `Weave.Shell.Builtin.isSpecial`: the special ones.
-/

namespace Weave.Shell

/-- What a built-in command does with its arguments. Its result is its status. -/
abbrev Builtin := List Octets → Action Nat

namespace Builtin

/-- The special built-in commands. -/
def special : List Octets :=
  [":", ".", "break", "continue", "eval", "exec", "exit", "export", "readonly", "return", "set",
    "shift", "times", "trap", "unset"].map String.toList

/-- Whether a name is that of a special built-in command. -/
def isSpecial (name : Octets) : Bool := special.contains name

/-! ### Output and conditions -/

/-- Prints its arguments. -/
def echo : Builtin := fun args ↦ do
  print (Format.echo args)
  return 0

/-- Prints a format filled in with its arguments. -/
def printf : Builtin := fun args ↦ do
  match if args.head? = some ['-', '-'] then args.drop 1 else args with
  | [] =>
    complain "printf: usage: printf format [arg ...]".toList
    return 2
  | format :: args =>
    let (out, status) := Format.render format args
    print out
    return status

/-- Tests a condition. -/
def test (args : List Octets) : Action Nat := do
  match Condition.holds ⟨← proc Kernel.files, (← get).dir⟩ args with
  | .ok true => return 0
  | .ok false => return 1
  | .error failure =>
    complain ("test: ".toList ++ failure.message)
    return 2

/-- Tests a condition in brackets. -/
def bracket : Builtin := fun args ↦ do
  if args.getLast? = some [']'] then test args.dropLast
  else
    complain "[: missing ]".toList
    return 2

/-! ### The working directory -/

/-- A path without full stops, which are taken away by name. -/
def normalized (path : Octets) : Octets :=
  let names := (Text.splitWhere (· = '/') path).foldl (fun (names : List Octets) name ↦
    if name.isEmpty || name = ['.'] then names
    else if name = ['.', '.'] then names.drop 1
    else name :: names) []
  if names.isEmpty then ['/'] else names.reverse.flatMap ('/' :: ·)

/-- Changes the working directory. -/
def cd : Builtin := fun args ↦ do
  let state ← get
  let physical := args.head? = some ['-', 'P']
  let args := if physical || args.head? = some ['-', 'L'] then args.drop 1 else args
  let args := if args.head? = some ['-', '-'] then args.drop 1 else args
  let back := args.head? = some ['-']
  let target :=
    match args.head? with
    | none => (state.lookup "HOME".toList).getD []
    | some target => if back then (state.lookup "OLDPWD".toList).getD [] else target
  let target := if target.isEmpty then ['.'] else target
  let whole := if target.head? = some '/' then target else state.path ++ '/' :: target
  let whole := if physical then whole else normalized whole
  match (← proc Kernel.files).locate [] (Octets.toText whole) with
  | .ok (place, some .directory) =>
    let path := if physical then Octets.ofText (Path.ofNames place) else whole
    modify fun state ↦
      let moved := { state with dir := place, path }
      (moved.assign "OLDPWD".toList state.path).assign "PWD".toList path
    if back then print (path ++ ['\n'])
    return 0
  | _ =>
    complain ("cd: can't cd to ".toList ++ target)
    return 2

/-- Prints the working directory. -/
def pwd : Builtin := fun args ↦ do
  let state ← get
  let physical := args.contains ['-', 'P']
  let path := if physical then Octets.ofText (Path.ofNames state.dir) else state.path
  print (path ++ ['\n'])
  return 0

/-! ### Variables -/

/-- An argument as a name and the value that it is given, if there is one. -/
def binding (argument : Octets) : Octets × Option Octets :=
  match Text.splitOnce? (· = '=') argument with
  | some (name, value) => (name, some value)
  | none => (argument, none)

/-- The text that a shell reads as some octets. -/
def requoted (octets : Octets) : Octets :=
  '\x27' :: octets.flatMap (fun c ↦ if c = '\x27' then "'\"'\"'".toList else [c]) ++ ['\x27']

/-- Prints the variables that have an attribute as commands that give it to them. -/
def listMarked (command : String) (has : Variable → Bool) : Action Nat := do
  let state ← get
  let marked := state.bindings.filter fun (_, v) ↦ has v
  let names := Expansion.ordered (marked.map Prod.fst)
  print (names.flatMap fun name ↦
    let value := (state.lookup name).elim [] fun value ↦ '=' :: requoted value
    command.toList ++ ' ' :: name ++ value ++ ['\n'])
  return 0

/-- Gives an attribute, and maybe a value, to variables. -/
def marking (command : String) (has : Variable → Bool) (change : Variable → Variable) : Builtin :=
  fun args ↦ do
    let args := if args.head? = some ['-', '-'] then args.drop 1 else args
    if args.isEmpty || args = [['-', 'p']] then listMarked command has
    else
      for argument in args do
        let (name, value) := binding argument
        if !Octets.isName name then
          fail (command.toList ++ ": ".toList ++ name ++ ": bad variable name".toList)
        match value with
        | some value => assign name value
        | none => pure ()
        modify fun state ↦ state.mark name change
      return 0

/-- Hands variables to the programs that are run. -/
def exportVariables : Builtin :=
  marking "export" Variable.exported fun v ↦ { v with exported := true }

/-- Makes variables unchangeable. -/
def readonly : Builtin := marking "readonly" Variable.readOnly fun v ↦ { v with readOnly := true }

/-- Forgets variables or functions. -/
def unset : Builtin := fun args ↦ do
  let functions := args.head? = some ['-', 'f']
  let args := if functions || args.head? = some ['-', 'v'] then args.drop 1 else args
  for name in args do
    if functions then
      modify fun state ↦
        { state with functions := state.functions.filter fun (f, _) ↦ f ≠ name }
    else
      if (← get).isReadOnly name then fail ("unset: ".toList ++ name ++ ": is read only".toList)
      modify fun state ↦
        { state with bindings := state.bindings.filter fun (v, _) ↦ v ≠ name }
  return 0

/-- Gives variables values that last as long as the running function. -/
def localVariables : Builtin := fun args ↦ do
  if !(← get).inFunction then fail "local: not in a function".toList
  for argument in args do
    let (name, value) := binding argument
    modify fun state ↦ { state with saved := (name, state.bindings.lookup name) :: state.saved }
    match value with
    | some value => assign name value
    | none => pure ()
  return 0

/-- The options with those of some letters switched on or off. -/
def switchAll (on : Bool) (letters : Octets) (options : Options) : Except Char Options :=
  letters.foldlM (fun options letter ↦
    match Options.ofLetter? letter with
    | some name => .ok (options.switch name on)
    | none => .error letter) options

/-- Prints the options, as a list or as commands that set them. -/
def listOptions (asCommands : Bool) : Action Unit := do
  let options := (← get).options
  let line (name : String) : Octets :=
    let on := options.has name
    if asCommands then (if on then "set -o " else "set +o ").toList ++ name.toList ++ ['\n']
    else
      let setting := if on then "on\n" else "off\n"
      name.toList ++ List.replicate (16 - name.length) ' ' ++ setting.toList
  let lines := Options.table.flatMap fun (name, _) ↦ line name
  print (if asCommands then lines else "Current option settings\n".toList ++ lines)

/-- Switches an option on or off by its long name. -/
def switchNamed (on : Bool) (name : Octets) : Action Unit := do
  match Options.ofName? name with
  | some name => modify fun state ↦ { state with options := state.options.switch name on }
  | none => fail ("set: Illegal option -o ".toList ++ name)

/-- Switches options on or off by their letters. -/
def switchLetters (on : Bool) (letters : Octets) : Action Unit := do
  match switchAll on letters (← get).options with
  | .ok options => modify ({ · with options })
  | .error letter => fail ("set: Illegal option -".toList ++ [letter])

/-- Sets options, and the positional parameters if there are other arguments. -/
def setArguments : List Octets → Action Unit
  | [] => return ()
  | ['-', '-'] :: rest => modify ({ · with positional := rest })
  | [['-']] => return ()
  | ['-'] :: rest => modify ({ · with positional := rest })
  | ['+'] :: rest => setArguments rest
  | [['-', 'o']] => listOptions false
  | [['+', 'o']] => listOptions true
  | ['-', 'o'] :: name :: rest => do
    switchNamed true name
    setArguments rest
  | ['+', 'o'] :: name :: rest => do
    switchNamed false name
    setArguments rest
  | ('-' :: letters) :: rest => do
    switchLetters true letters
    setArguments rest
  | ('+' :: letters) :: rest => do
    switchLetters false letters
    setArguments rest
  | rest => modify ({ · with positional := rest })

/-- Sets options and positional parameters, or prints the variables. -/
def configure : Builtin := fun args ↦ do
  if args.isEmpty then
    let state ← get
    let names := Expansion.ordered (state.bindings.map Prod.fst)
    print (names.flatMap fun name ↦
      (state.lookup name).elim [] fun value ↦ name ++ '=' :: requoted value ++ ['\n'])
  else setArguments args
  return 0

/-- Drops positional parameters. -/
def shift : Builtin := fun args ↦ do
  let count := ((args.head?).bind Octets.toNat?).getD 1
  let positional := (← get).positional
  if positional.length < count then fail "shift: can't shift that many".toList
  modify ({ · with positional := positional.drop count })
  return 0

/-! ### Reading -/

/-- Takes one field off the front of a line, and the separators after it. -/
def takeField (separators : Octets) (line : List Glyph) : Octets × List Glyph :=
  let isSeparator (g : Glyph) : Bool := !g.quoted && separators.contains g.octet
  let isBlank (g : Glyph) : Bool := isSeparator g && Octets.isBlank g.octet
  let field := line.takeWhile fun g ↦ !isSeparator g
  let rest := (line.drop field.length).dropWhile isBlank
  let rest :=
    match rest with
    | g :: gs => if isSeparator g then gs.dropWhile isBlank else rest
    | [] => []
  (field.map Glyph.octet, rest)

/-- Gives variables the fields of a line; the last one takes all that is left. -/
def assignFields (separators : Octets) (line : List Glyph) : List Octets → Action Unit
  | [] => return ()
  | [name] =>
    let isBlank (g : Glyph) : Bool :=
      !g.quoted && separators.contains g.octet && Octets.isBlank g.octet
    assign name ((line.reverse.dropWhile isBlank).reverse.map Glyph.octet)
  | name :: names => do
    let (field, rest) := takeField separators line
    assign name field
    assignFields separators rest names

/-- The glyphs of a line in which a backslash quotes what follows. -/
def unescapedLine : Octets → List Glyph
  | '\\' :: c :: cs => ⟨c, true⟩ :: unescapedLine cs
  | ['\\'] => []
  | c :: cs => ⟨c, false⟩ :: unescapedLine cs
  | [] => []

/-- Whether a line ends with a backslash that quotes its line feed. -/
def isContinued : Octets → Bool
  | '\\' :: '\n' :: _ => true
  | '\\' :: _ :: cs => isContinued cs
  | _ :: cs => isContinued cs
  | [] => false

/-- A line of the standard input, joined with the lines that continue it, and whether it is whole.
-/
def inputLine (raw : Bool) (stream : Nat) : Proc (Octets × Bool) := do
  let line ← iterate patience (fun (before : Octets) ↦ do
    let line ← Kernel.readLine stream
    if !raw && isContinued line then return Sum.inl (before ++ line.dropLast.dropLast)
    else return Sum.inr (before ++ line)) []
  let line := line.getD []
  return if line.getLast? = some '\n' then (line.dropLast, true) else (line, false)

/-- Tells the names that are read into from the options. -/
def readOptions (raw : Bool) : List Octets → Bool × List Octets
  | ['-', '-'] :: rest => (raw, rest)
  | ['-', 'r'] :: rest => readOptions true rest
  | ['-', 'p'] :: _ :: rest => readOptions raw rest
  | names => (raw, names)

/-- Reads a line and gives variables its fields. -/
def read : Builtin := fun args ↦ do
  let (raw, names) := readOptions false args
  let state ← get
  if names.isEmpty then
    complain "read: arg count".toList
    return 2
  match state.descriptors.lookup 0 with
  | none => return 1
  | some stream =>
    let (line, whole) ← proc (inputLine raw stream)
    let separators := Expansion.separators state
    let line := line.filter (· ≠ '\x00')
    let glyphs := if raw then Glyph.ofOctets false line else unescapedLine line
    let start := glyphs.dropWhile fun g ↦
      !g.quoted && separators.contains g.octet && Octets.isBlank g.octet
    assignFields separators start names
    return if whole then 0 else 1

/-! ### Options of scripts -/

/-- What comes of looking for the next option: its letter, with its argument if it takes one. -/
inductive OptionFound where
  | finished
  | option (letter : Char) (argument : Option Octets)
  | unknown (letter : Char)
  | incomplete (letter : Char)

/-- Takes the next letter of an argument, which `more` letters follow. The result says also which
argument comes next, and how many letters of this one have been read, or zero if it has been read to
its end. -/
def takeOption (wanted : Octets) (args : List Octets) (letter : Char) (more : Octets)
    (index offset : Nat) : OptionFound × Nat × Nat :=
  let takesArgument := (wanted.dropWhile (· ≠ letter))[1]? = some ':'
  if letter = ':' || !wanted.contains letter then (.unknown letter, index, offset + 1)
  else if !takesArgument then (.option letter none, index, offset + 1)
  else if !more.isEmpty then (.option letter (some more), index, 0)
  else
    match args[index - 1]? with
    | some argument => (.option letter (some argument), index + 1, 0)
    | none => (.incomplete letter, index, 0)

/-- The next option of some arguments: the next letter of the argument before the one at `index`, or
else the first letter of that one. -/
def nextOption (wanted : Octets) (args : List Octets) (index offset : Nat) :
    OptionFound × Nat × Nat :=
  let left := if offset = 0 then [] else (args[index - 2]?.getD []).drop offset
  match left with
  | letter :: more => takeOption wanted args letter more index offset
  | [] =>
    match args[index - 1]? with
    | some ['-', '-'] => (.finished, index + 1, 0)
    | some ('-' :: letter :: more) => takeOption wanted args letter more (index + 1) 1
    | _ => (.finished, index, 0)

/-- Reads the next option of the positional parameters, or of other arguments. -/
def getopts : Builtin := fun args ↦ do
  match args with
  | wanted :: name :: others =>
    let state ← get
    let index := ((state.lookup State.optionIndex).bind Octets.toNat?).getD 1
    let operands := if others.isEmpty then state.positional else others
    let silent := wanted.head? = some ':'
    let argumentName := "OPTARG".toList
    let (found, index, offset) := nextOption wanted operands index state.optionOffset
    let shown : Octets ←
      match found with
      | .finished => pure ['?']
      | .option letter argument => do
        assign argumentName (argument.getD [])
        pure [letter]
      | .unknown letter => do
        if silent then assign argumentName [letter]
        else complain ("Illegal option -".toList ++ [letter])
        pure ['?']
      | .incomplete letter => do
        if silent then assign argumentName [letter]
        else complain ("No arg for -".toList ++ letter :: " option".toList)
        pure (if silent then [':'] else ['?'])
    assign name shown
    assign State.optionIndex (Octets.ofNat index)
    modify ({ · with optionOffset := offset })
    match found with
    | .finished => return 1
    | _ => return 0
  | _ => fail "getopts: Usage: getopts optstring var [arg...]".toList

/-! ### Ends -/

/-- The status that an argument gives, or that of the last command. -/
def statusArgument (command : String) (args : List Octets) : Action Nat := do
  match args.head? with
  | none => return (← get).status
  | some argument =>
    match Octets.toNat? argument with
    | some status => return status % 256
    | none => fail (command.toList ++ ": Illegal number: ".toList ++ argument)

/-- Ends the shell. -/
def exit : Builtin := fun args ↦ do throw (.leave (← statusArgument "exit" args))

/-- Ends the running function. -/
def leaveFunction : Builtin := fun args ↦ do
  throw (Escape.leaveFunction (← statusArgument "return" args))

/-- Escapes from loops, no more than there are. -/
def escapeLoops (command : String) (escape : Nat → Escape) : Builtin := fun args ↦ do
  let count ← if args.isEmpty then pure 1 else statusArgument command args
  if count = 0 then fail (command.toList ++ ": Illegal number: 0".toList)
  let loops := (← get).loops
  if loops = 0 then return 0 else throw (escape (min count loops))

/-! ### Signals and processes -/

/-- Sends a signal to a process: to this one or to its parent. A copy of a shell has the number of
the shell. -/
def signalProcess (signal : Nat) (process : Octets) : Action Nat := do
  let state ← get
  match Octets.toNat? process with
  | none =>
    complain ("kill: Illegal number: ".toList ++ process)
    return 2
  | some process =>
    if process = state.process && !state.isCopy then
      receive signal
      return 0
    else if process = state.process || process = state.parent then
      proc (Kernel.sendSignal process signal)
      return 0
    else
      complain "kill: No such process".toList
      return 1

/-- Sends a signal to processes. -/
def signalAll (signal : Octets) (processes : List Octets) : Action Nat := do
  match Signal.ofName? signal with
  | none =>
    complain ("kill: bad signal ".toList ++ signal)
    return 2
  | some signal =>
    if processes.isEmpty then
      complain "kill: usage: kill [-s sigspec | -signum | -sigspec] [pid | job]...".toList
      return 2
    else
      processes.foldlM (fun status process ↦ do
        return max status (← signalProcess signal process)) 0

/-- The signal that a status stands for, or that has a number. -/
def signalOfStatus (status : Octets) : Nat :=
  let n := (Octets.toNat? status).getD 0
  if 128 < n then n - 128 else n

/-- Sends signals, or prints their names. -/
def kill : Builtin := fun args ↦ do
  match args with
  | [['-', 'l']] =>
    let names := (List.range Signal.last).map fun n ↦ Signal.name (n + 1)
    print (['0', '\n'] ++ names.flatMap fun name ↦ name ++ ['\n'])
    return 0
  | ['-', 'l'] :: statuses =>
    print (statuses.flatMap fun status ↦ Signal.name (signalOfStatus status) ++ ['\n'])
    return 0
  | ['-', 's'] :: signal :: processes => signalAll signal processes
  | ['-', '-'] :: processes => signalAll (Signal.name Signal.terminate) processes
  | ('-' :: signal) :: processes => signalAll signal processes
  | processes => signalAll (Signal.name Signal.terminate) processes

/-- Prints the traps as commands that set them. -/
def listTraps : Action Unit := do
  let traps := (← get).traps
  print ((List.range (Signal.last + 1)).flatMap fun signal ↦
    match traps.lookup signal with
    | some command => "trap -- ".toList ++ requoted command ++ ' ' :: Signal.name signal ++ ['\n']
    | none => [])

/-- Sets what is run when signals arrive, or resets it. -/
def setTraps (command : Option Octets) (signals : List Octets) : Action Nat :=
  signals.foldlM (fun status name ↦ do
    match Signal.ofName? name with
    | none =>
      complain ("trap: ".toList ++ name ++ ": bad trap".toList)
      return 1
    | some signal =>
      modify fun state ↦
        let others := state.traps.filter fun (s, _) ↦ s ≠ signal
        { state with traps := (command.map fun command ↦ (signal, command)).toList ++ others }
      return status) 0

/-- Prints or sets traps. -/
def trap : Builtin := fun args ↦ do
  match if args.head? = some ['-', '-'] then args.drop 1 else args with
  | [] =>
    listTraps
    return 0
  | [signal] => setTraps none [signal]
  | command :: signals => setTraps (if command = ['-'] then none else some command) signals

/-- Waits for processes that were started in the background. All of them have ended. -/
def wait : Builtin := fun args ↦ do
  let jobs := (← get).jobs
  match args.getLast? with
  | none => return 0
  | some process => return (((Octets.toNat? process).bind (jobs.lookup ·)).getD 127)

/-- Prints or sets the permissions that new files do not get. -/
def umask : Builtin := fun args ↦ do
  match args with
  | [] =>
    let digits := (Nat.toDigits 8 (← get).mask)
    print (List.replicate (4 - digits.length) '0' ++ digits ++ ['\n'])
    return 0
  | mask :: _ =>
    if mask.all fun c ↦ '0' ≤ c && c ≤ '7' then
      modify ({ · with mask := mask.foldl (fun n c ↦ n * 8 + (c.toNat - 48)) 0 })
    return 0

/-- Prints the time that the shell and its processes have taken, which is none. -/
def times : Builtin := fun _ ↦ do
  let line := "0m0.000000s 0m0.000000s\n".toList
  print (line ++ line)
  return 0

/-- Prints that a resource is not limited. -/
def ulimit : Builtin := fun args ↦ do
  if args.length ≤ 1 then print "unlimited\n".toList
  return 0

/-! ### The table -/

/-- The built-in commands that need nothing but the state. -/
def table : List (Octets × Builtin) :=
  [(":", fun _ ↦ return 0), ("true", fun _ ↦ return 0), ("false", fun _ ↦ return 1), ("echo", echo),
    ("printf", printf), ("test", test), ("[", bracket), ("cd", cd), ("chdir", cd), ("pwd", pwd),
    ("export", exportVariables), ("readonly", readonly), ("unset", unset),
    ("local", localVariables),
    ("set", configure), ("shift", shift), ("read", read), ("exit", exit), ("return", leaveFunction),
    ("break", escapeLoops "break" .leaveLoops), ("continue", escapeLoops "continue" .nextRound),
    ("kill", kill), ("trap", trap), ("wait", wait), ("umask", umask), ("ulimit", ulimit),
    ("getopts", getopts), ("jobs", fun _ ↦ return 0), ("hash", fun _ ↦ return 0),
    ("alias", fun _ ↦ return 0), ("unalias", fun _ ↦ return 0), ("times", times)].map
      fun (name, builtin) ↦ (name.toList, builtin)

/-- The built-in command of a name. -/
def find? (name : Octets) : Option Builtin := table.lookup name

end Builtin

end Weave.Shell
