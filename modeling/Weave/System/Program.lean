import Weave.Shell.Program
import Weave.Utility.Edit
import Weave.Utility.Expression
import Weave.Utility.Files
import Weave.Utility.Lines
import Weave.Utility.Match

/-!
# Programs

A program is found by its name along the search path and run with what it takes over from the one
that starts it.

## Main definitions

* `Weave.Program.utilities`: the utilities by name.
* `Weave.Program.find`: where the program of a name is.
* `Weave.Program.start`: how programs are started.
* `Weave.Program.installed`: a file tree that holds the programs.
-/

namespace Weave.Program

/-! ### Utilities -/

/-- Prints its arguments as they are. -/
def echo : Utility := fun inheritance args ↦ do
  let (bare, args) :=
    match args with
    | ['-', 'n'] :: rest => (true, rest)
    | args => (false, args)
  inheritance.print (Text.joinWith [' '] args ++ if bare then [] else ['\n'])
  return 0

/-- Prints a format filled in with its arguments. -/
def printf : Utility := fun inheritance args ↦ do
  match args with
  | [] =>
    inheritance.complain "printf: missing operand".toList
    return 1
  | format :: args =>
    let (out, status) := Shell.Format.render format args
    inheritance.print out
    return min 1 status

/-- Tests a condition. -/
def test : Utility := fun inheritance args ↦ do
  match Shell.Condition.holds ⟨← Kernel.files, inheritance.dir⟩ args with
  | .ok true => return 0
  | .ok false => return 1
  | .error failure =>
    inheritance.complain ("test: ".toList ++ failure.message)
    return 2

/-- Lets the seconds pass that its arguments add up to. -/
def sleep : Utility := fun _ args ↦ do
  let seconds (argument : Octets) : Nat :=
    (Octets.toNat? (argument.takeWhile Char.isDigit)).getD 0
  Kernel.sleep (args.foldl (fun n argument ↦ n + seconds argument) 0)
  return 0

/-- Prints the working directory. -/
def pwd : Utility := fun inheritance _ ↦ do
  inheritance.print (Octets.ofText (Path.ofNames inheritance.dir) ++ ['\n'])
  return 0

/-- Prints the values of variables, or the whole environment. -/
def printenv : Utility := fun inheritance args ↦ do
  if args.isEmpty then
    inheritance.print (inheritance.environment.flatMap fun (name, value) ↦
      name ++ '=' :: value ++ ['\n'])
    return 0
  else
    let values := args.map fun name ↦ inheritance.environment.lookup name
    inheritance.print (values.flatMap fun value ↦ value.elim [] (· ++ ['\n']))
    return Utility.statusOf (values.all Option.isSome)

/-- The utilities by name. -/
def utilities : List (Text × Utility) :=
  [("[", fun inheritance args ↦ test inheritance args.dropLast), ("basename", Utility.basename),
    ("cat", Utility.cat), ("chmod", Utility.chmod), ("cp", Utility.cp), ("cut", Utility.cut),
    ("dirname", Utility.dirname), ("echo", echo), ("expr", Utility.expr),
    ("false", fun _ _ ↦ return 1), ("find", Utility.find), ("grep", Utility.grep),
    ("head", Utility.head), ("ln", Utility.ln), ("ls", Utility.ls), ("mkdir", Utility.mkdir),
    ("mv", Utility.mv), ("nl", Utility.nl), ("printenv", printenv), ("printf", printf),
    ("pwd", pwd),
    ("readlink", Utility.readlink), ("realpath", Utility.realpath), ("rev", Utility.rev),
    ("rm", Utility.rm), ("rmdir", Utility.rmdir), ("sed", Utility.sed), ("seq", Utility.seq),
    ("sleep", sleep), ("sort", Utility.sort), ("tac", Utility.tac), ("tail", Utility.tail),
    ("tee", Utility.tee), ("test", test), ("touch", Utility.touch), ("tr", Utility.tr),
    ("true", fun _ _ ↦ return 0), ("uniq", Utility.uniq), ("wc", Utility.wc),
    ("yes", Utility.yes)].map fun (name, utility) ↦ (name.toList, utility)

/-- The programs that run other programs. -/
def runners : List Text := ["sh", "dash", "env", "xargs"].map String.toList

/-- The place of the programs. -/
def home : List Text := ["usr", "bin"].map String.toList

/-- The place of the user's own files. -/
def userHome : List Text := ["root".toList]

/-- A file tree with the programs and with what every system has. -/
def installed : FileTree :=
  let names := utilities.map Prod.fst ++ runners
  let program (tree : FileTree) (name : Text) : FileTree :=
    tree.install (home ++ [name]) (.file [] true)
  let tree := names.foldl program {}
  let tree := tree.install ["bin".toList] (.link "usr/bin".toList)
  let tree := tree.install (["dev", "null"].map String.toList) .null
  (tree.install ["tmp".toList] .directory).install userHome .directory

/-! ### Finding programs -/

/-- The search path where none is set. -/
def searchPath : Octets := "/usr/local/sbin:/usr/local/bin:/usr/sbin:/usr/bin:/sbin:/bin".toList

/-- The environment that a machine starts with. -/
def environment : List (Octets × Octets) :=
  [("PATH".toList, searchPath), ("HOME".toList, Octets.ofText (Path.ofNames userHome))]

/-- The place and the content of the program at a path. -/
def programAt (tree : FileTree) (dir : List Text) (path : Text) :
    Except FileFault (List Text × Bytes) := do
  match ← tree.locate dir path with
  | (place, some (.file content true)) => return (place, content)
  | (_, some _) => throw .denied
  | (_, none) => throw .notFound

/-- The first program of some paths; if there is none, whether one of them was denied. -/
def firstProgram (tree : FileTree) (dir : List Text) (failure : FileFault) :
    List Text → Except FileFault (List Text × Bytes)
  | [] => .error failure
  | path :: rest =>
    match programAt tree dir path with
    | .ok found => .ok found
    | .error .denied => firstProgram tree dir .denied rest
    | .error _ => firstProgram tree dir failure rest

/-- Where the program of a name is: at a path, or in a directory of the search path. -/
def find (tree : FileTree) (inheritance : Inheritance) (name : Octets) :
    Except FileFault (List Text × Bytes) :=
  if name.isEmpty then .error .notFound
  else if name.contains '/' then programAt tree inheritance.dir (Octets.toText name)
  else
    let path := (inheritance.environment.lookup "PATH".toList).getD searchPath
    let paths := (Text.splitWhere (· = ':') path).map fun dir ↦
      Path.join (Octets.toText dir) (Octets.toText name)
    firstProgram tree inheritance.dir .notFound paths

/-! ### Starting programs -/

/-- An environment changed by the options in front of some arguments, and the other arguments. -/
def changedEnvironment (environment : List (Octets × Octets)) :
    List Octets → List (Octets × Octets) × List Octets
  | ['-', 'i'] :: rest => changedEnvironment [] rest
  | ['-', 'u'] :: name :: rest =>
    changedEnvironment (environment.filter fun (other, _) ↦ other ≠ name) rest
  | rest => (environment, rest)

/-- Runs a program in an environment with some variables set, or prints that environment. -/
def env (start : Shell.Start) (inheritance : Inheritance) (args : List Octets) :
    Proc (Except FileFault Nat) := do
  let (environment, args) := changedEnvironment inheritance.environment args
  let isSetting (argument : Octets) : Bool := argument.contains '='
  let settings := (args.takeWhile isSetting).filterMap (Text.splitOnce? (· = '='))
  let environment := settings.foldl (fun environment (name, value) ↦
    Shell.State.put environment name value) environment
  match args.dropWhile isSetting with
  | [] =>
    inheritance.print (environment.flatMap fun (name, value) ↦ name ++ '=' :: value ++ ['\n'])
    return .ok 0
  | name :: args =>
    match ← start { inheritance with environment } name args with
    | .ok status => return .ok status
    | .error fault =>
      inheritance.complain
        ("env: '".toList ++ name ++ "': ".toList ++ Octets.ofText fault.label)
      return .ok 127

/-- The words that are given to a program at a time: some of them, or all. -/
def portions (size : Option Nat) (words : List Octets) : List (List Octets) :=
  match size with
  | some (n + 1) =>
    (List.range ((words.length + n) / (n + 1))).map fun i ↦ (words.drop (i * (n + 1))).take (n + 1)
  | _ => [words]

/-- Runs a program with the words of the standard input as its last arguments. -/
def xargs (start : Shell.Start) (inheritance : Inheritance) (args : List Octets) :
    Proc (Except FileFault Nat) := do
  let (size, args) :=
    match args with
    | ['-', 'n'] :: size :: rest => (Octets.toNat? size, rest)
    | ('-' :: 'n' :: size) :: rest => (Octets.toNat? size, rest)
    | args => (none, args)
  let (name, args) :=
    match args with
    | [] => ("echo".toList, [])
    | name :: args => (name, args)
  let words := Text.words (← inheritance.readAll)
  let mut status := 0
  for portion in portions size words do
    match ← start inheritance name (args ++ portion) with
    | .ok 0 => pure ()
    | .ok _ => status := 123
    | .error fault =>
      Utility.complainOf inheritance "xargs" name fault
      return .ok 127
  return .ok status

/-- The interpreter that the first line of a script names, and its argument. -/
def interpreter? (content : Bytes) : Option (List Octets) :=
  match Octets.ofBytes content with
  | '#' :: '!' :: cs => some (Text.words (cs.takeWhile (· ≠ '\n')))
  | _ => none

/-- Starts a program; programs that start others are nested at most as deep as the bound. -/
def start : Nat → Shell.Start
  | 0 => fun _ _ _ ↦ return .error .denied
  | bound + 1 => fun inheritance name args ↦ do
    match find (← Kernel.files) inheritance name with
    | .error fault => return .error fault
    | .ok (place, content) =>
      let program := if place.dropLast = home then place.getLast?.getD [] else []
      if program = "env".toList then env (start bound) inheritance args
      else if program = "xargs".toList then xargs (start bound) inheritance args
      else if program ∈ runners then
        return .ok (← Shell.process (start bound) inheritance name args)
      else
        match utilities.lookup program with
        | some utility => return .ok (← utility inheritance args)
        | none =>
          match interpreter? content with
          | some (interpreter :: options) =>
            start bound inheritance interpreter (options ++ name :: args)
          | _ => return .error .notExecutable

end Weave.Program
