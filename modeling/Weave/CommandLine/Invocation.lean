import Weave.CommandLine.Toolkit
import Weave.Run.Pipeline
import Weave.Settings.Discovery
import Weave.System.Machine

/-!
# Invocations

An invocation does what a command line says on a machine. Documents are read before anything is
written, and each output file is written only when its document has been rendered as a whole, so
that a failure leaves the output of that document as it was. Arguments, settings and globs are read
and directories are walked with a toolkit.

## Main definitions

* `Weave.Failure`: why an invocation fails.
* `Weave.Invocation.render`: one document, passed through all filters.
* `Weave.Invocation.parse`, `Weave.Invocation.make`, `Weave.Invocation.filter`: the subcommands.
* `Weave.Invocation.run`: what an invocation prints, and the status that it ends with.
-/

namespace Weave

/-- Why an invocation fails. -/
inductive Failure where
  /-- A document, a setting or a run is refused. -/
  | refused (error : Error)
  /-- A file cannot be written. -/
  | unwritable (fault : FileFault)
  /-- A run does not come to an end by itself. -/
  | halted (reason : Halt)
  deriving Repr

/-- The status that a failure ends an invocation with. -/
def Failure.status : Failure → Nat
  | refused _ => 2
  | unwritable _ => 2
  | halted _ => 101

/-- The machine that an invocation runs on, and what has been printed so far. -/
structure Console where
  machine : Machine
  output : Text := []

/-- What an invocation ends with. -/
structure Outcome where
  /-- The status. -/
  status : Nat
  /-- The standard output. -/
  output : Text := []
  failure : Option Failure := none

/-- A step of an invocation. What was written and printed before a failure stays. -/
abbrev Invocation := ExceptT Failure (StateM Console)

namespace Invocation

/-! ### Files and output -/

/-- The machine as it is. -/
def machine : Invocation Machine := return (← get).machine

/-- The files as they are. -/
def files : Invocation FileTree := return (← machine).kernel.tree

/-- The place of the working directory. -/
def dir : Invocation (List Text) := return (← machine).dir

/-- Ends the invocation if something was refused. -/
def accept {α : Type} : Except Error α → Invocation α
  | .ok a => return a
  | .error e => throw (.refused e)

/-- Prints a text. -/
def print (text : Text) : Invocation Unit :=
  modify fun console ↦ { console with output := console.output ++ text }

/-- The text of an input document. -/
def readInput (path : Text) : Invocation Text := do
  match (← files).readText (← dir) path with
  | .ok text => return text
  | .error fault => throw (.refused (.readInput path fault.message))

/-- Writes a text to a file. -/
def writeFile (path text : Text) : Invocation Unit := do
  match (← files).write (← dir) path (Utf8.encode text) with
  | .ok tree =>
    modify fun console ↦
      { console with machine := console.machine.withKernel { console.machine.kernel with tree } }
  | .error fault => throw (.unwritable fault)

/-- The name that stands for the standard output. -/
def standardOutput : Text := ['-']

/-- Writes a rendered document to a file, or prints it. -/
def deliver (output : Option Text) (document : Text) : Invocation Unit :=
  match output with
  | none => print document
  | some path => if path = standardOutput then print document else writeFile path document

/-! ### Rendering -/

section Tools

variable (tools : Toolkit)

/-- The extension of the sources. -/
def sourceExtension : Text := "mdoc".toList

/-- The extension of what is built from them. -/
def builtExtension : Text := "md".toList

/-- The path of what is built from a source. -/
def builtPath (source : Text) : Text := Path.withExtension source builtExtension

/-- The directory that the included files and the settings of a document are found from. -/
def documentDir (input : Text) : Invocation Text := do
  let parent := Path.parent input
  return ((← files).canonical? (← dir) parent).getD parent

/-- The settings that a command line names, or else those of a directory. -/
def settings (commandLine : CommandLine) (directory : Text) : Invocation Settings := do
  match commandLine.config with
  | some path => accept (Settings.load (← files) (← dir) path tools.settings)
  | none =>
    return (← accept (Settings.discover (← files) (← dir) directory tools.settings)).getD {}

/-- Passes a document through a pipeline. -/
def pass (pipeline : Pipeline Child) (document : Text) : Invocation Text := do
  match (pipeline.run Machine.host document).run { world := ← machine } with
  | .error reason => throw (.halted reason)
  | .ok ((result, _), scene) =>
    modify fun console ↦ { console with machine := scene.world }
    accept result

/-- Passes the document at a path through all filters. Its code runs in `workspace`, or else in its
own directory. -/
def render (commandLine : CommandLine) (options : RunOptions) (input : Text)
    (workspace : Option Text) : Invocation Text := do
  let document ← readInput input
  let directory ← documentDir input
  let settings ← settings tools commandLine directory
  pass (.withWorkspace options settings directory (workspace.getD directory)) document

/-- The options of a run. -/
def runOptions (commandLine : CommandLine) (noExec collapse : Bool) : RunOptions :=
  { noExec, verbose := commandLine.verbose, collapseBlankLines := collapse }

/-! ### Subcommands -/

/-- The path of the working directory. -/
def workingDir : Invocation Text := return Path.ofNames (← dir)

/-- Passes one document through all filters. -/
def parse (commandLine : CommandLine) (input : Text) (output : Option Text)
    (beside noExec collapse : Bool) : Invocation Unit := do
  let options := runOptions commandLine noExec collapse
  let rendered ← render tools commandLine options input (some (← workingDir))
  deliver (if beside then some (builtPath input) else output) rendered

/-- The glob of a pattern. -/
def excludeGlob (pattern : Text) : Except Error tools.Glob :=
  (tools.glob pattern).mapError fun reason ↦
    .invalidExcludePattern (pattern ++ ": ".toList ++ reason)

/-- The names that some patterns exclude. -/
def excludes (patterns : List Text) : Except Error (Text → Bool) := do
  let globs ← patterns.mapM (excludeGlob tools)
  (tools.globSet globs).mapError .invalidExcludePattern

/-- Builds one source below a directory. -/
def build (commandLine : CommandLine) (options : RunOptions) (path : Text) (names : List Text) :
    Invocation Unit := do
  let name := Text.joinWith ['/'] names
  let source := Path.join path name
  writeFile (builtPath source) (← render tools commandLine options source none)
  if commandLine.verbose then print (' ' :: ' ' :: name ++ ['\n'])

/-- A text in green. -/
def green (text : Text) : Text := "\x1b[32m".toList ++ text ++ "\x1b[39m".toList

/-- The report on what was built. -/
def report (colored : Bool) (count : Nat) : Text :=
  let text := "Built ".toList ++ Text.ofNat count ++ " document(s).".toList
  (if colored then green text else text) ++ ['\n']

/-- Builds every source in a directory. -/
def make (commandLine : CommandLine) (colored : Bool) (path : Text)
    (recursive noExec collapse : Bool) (exclude : List Text) : Invocation Unit := do
  let tree ← files
  let place ←
    match tree.locate (← dir) path with
    | .ok (place, some .directory) => pure place
    | _ => throw (.refused (.readInput path "not a directory".toList))
  let excluded ← accept (excludes tools exclude)
  match Walk.sources sourceExtension excluded (tools.walk tree recursive place) with
  | [] => print "No .mdoc files found.\n".toList
  | sources =>
    sources.forM (build tools commandLine (runOptions commandLine noExec collapse) path)
    print (report (colored && !commandLine.noColor) sources.length)

/-- The filter of a subcommand for an input document. Only code needs settings. -/
def filterFor (commandLine : CommandLine) (input : Text) :
    SingleFilter → Invocation (Filter Child)
  | .comment => return .comment
  | .inclusion => return .inclusion (← documentDir input)
  | .contents => return .contents
  | .execute noExec => do
    let settings ← settings tools commandLine (← documentDir input)
    return .execute (.new (runOptions commandLine noExec false) settings (← workingDir))
  | .blankLines => return .blankLines

/-- Passes one document through one filter. -/
def filter (commandLine : CommandLine) (filter : SingleFilter) (input : Text)
    (output : Option Text) : Invocation Unit := do
  let filter ← filterFor tools commandLine input filter
  let document ← readInput input
  deliver output (← pass { filters := [filter], verbose := commandLine.verbose } document)

/-- Does what a subcommand says. -/
def perform (commandLine : CommandLine) (colored : Bool) : Subcommand → Invocation Unit
  | .parse input output beside noExec collapse =>
    parse tools commandLine input output beside noExec collapse
  | .make path recursive noExec collapse exclude =>
    make tools commandLine colored path recursive noExec collapse exclude
  | .filter kind input output => filter tools commandLine kind input output

end Tools

/-! ### Running -/

/-- What is printed where help or the version is asked for. -/
def usage : Text := "Usage: mdoc [OPTIONS] [COMMAND]\n".toList

/-- Runs the command line of some arguments on a machine. Without a subcommand the status is one,
and of a command line that is wrong it is two. Color is used if the output takes it and the command
line does not forbid it. -/
def run (colored : Bool) (args : List Text) (machine : Machine) (tools : Toolkit := .standard) :
    Outcome × Machine :=
  match tools.commandLine args with
  | .error .displayHelp => ({ status := 0, output := usage }, machine)
  | .error .displayVersion => ({ status := 0, output := usage }, machine)
  | .error _ => ({ status := 2 }, machine)
  | .ok commandLine =>
    match commandLine.subcommand with
    | none => ({ status := 1 }, machine)
    | some subcommand =>
      match StateT.run (ExceptT.run (perform tools commandLine colored subcommand)) { machine } with
      | (.ok (), console) => ({ status := 0, output := console.output }, console.machine)
      | (.error failure, console) =>
        ({ status := failure.status, output := console.output, failure := some failure },
          console.machine)

end Invocation

end Weave
