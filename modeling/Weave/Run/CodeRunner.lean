import Weave.Run.Interpreter
import Weave.Run.ShellCommand
import Weave.Settings.Language
import Weave.Document.Segment
import Weave.Files.Path

/-!
# Running the blocks of a document

Every executable block is replaced by its source and its result. The interpreters that were started
for a document are stopped at its end.

## Main definitions

* `Weave.CodeRunner`: the shell, the interpreters and the directory of a run.
* `Weave.CodeRunner.renderBlock`, `Weave.CodeRunner.run`, `Weave.CodeRunner.stopSessions`.
-/

namespace Weave

/-- What runs the blocks of documents. -/
structure CodeRunner (σ : Type) where
  /-- Blocks are shown but not run. -/
  noExec : Bool
  /-- The directory that blocks run in. -/
  workspace : Text
  shell : ShellSettings
  profiles : Registry Profile
  interpreters : Registry (Interpreter σ)

namespace CodeRunner

variable {ω σ : Type}

/-- A runner for a workspace, with every interpreter stopped. -/
def new (options : RunOptions) (settings : Settings) (workspace : Text) : CodeRunner σ where
  noExec := options.noExec
  workspace := workspace
  shell := settings.shell
  profiles := settings.profiles
  interpreters := settings.profiles.map fun name profile ↦ { name, profile }

/-- What runs blocks with a language tag. -/
def language (runner : CodeRunner σ) (tag : Text) : Language := .resolve runner.profiles tag

/-- The directory that a block runs in. -/
def workingDir (runner : CodeRunner σ) (options : FenceOptions) : Text :=
  match options.path with
  | none => runner.workspace
  | some path => Path.join runner.workspace path

/-- Runs a block. -/
def dispatch (host : Host ω σ) (runner : CodeRunner σ) (block : CodeBlock) (dir : Text) :
    Task ω (Except Error Text × CodeRunner σ) := do
  match runner.language block.language with
  | .shell => return (← ShellCommand.execute host runner.shell block.body dir, runner)
  | .interpreter name =>
    match runner.interpreters.get? name with
    | none => return (.ok Language.unsupportedResult, runner)
    | some interpreter =>
      let (result, interpreter) ← interpreter.execute host block.body dir
      return (result, { runner with interpreters := runner.interpreters.replace name interpreter })
  | .unsupported tag =>
    Task.emit ⟨.warn, "no executor for code block".toList, [("language", tag)]⟩
    return (.ok Language.unsupportedResult, runner)

/-- Runs a block and returns its result, or the text that stands for the result if it failed. -/
def execute (host : Host ω σ) (runner : CodeRunner σ) (block : CodeBlock) (options : FenceOptions) :
    Task ω (Text × CodeRunner σ) := do
  match ← runner.dispatch host block (runner.workingDir options) with
  | (.ok output, runner) => return (output, runner)
  | (.error e, runner) =>
    Task.emit ⟨.error, "code block failed".toList,
      [("language", block.language), ("error", e.message)]⟩
    return ("ERROR: ".toList ++ e.message, runner)

/-- The source of a block as it is shown. -/
def renderSource (block : CodeBlock) : Text :=
  Fence.ticks ++ block.language ++ ['\n'] ++ block.body ++ Fence.ticks ++ ['\n', '\n']

/-- The result of a block as it is shown within a fence. -/
def renderResult (result : Text) : Text :=
  Fence.ticks ++ ['\n'] ++ result ++ ['\n'] ++ Fence.ticks ++ ['\n']

/-- What is shown of the result of a block. -/
def shownResult (options : FenceOptions) (result : Text) : Text :=
  if options.noEcho then [] else if options.raw then result else renderResult result

/-- What is shown of the source of a block. -/
def shownSource (options : FenceOptions) (block : CodeBlock) : Text :=
  if options.noCode then [] else renderSource block

/-- A block as it is shown: its source and then its result. A block whose result is hidden is run
all the same. -/
def renderBlock (host : Host ω σ) (runner : CodeRunner σ) (block : CodeBlock) :
    Task ω (Text × CodeRunner σ) := do
  let options := block.fenceOptions
  Task.emitAll (FenceOptions.warnings block.options)
  if runner.noExec then return (shownSource options block, runner)
  else
    let (result, runner) ← runner.execute host block options
    return (shownSource options block ++ shownResult options result, runner)

/-- The segments of a document with their blocks rendered, in order. -/
def renderSegments (host : Host ω σ) (runner : CodeRunner σ) :
    List Segment → Task ω (Text × CodeRunner σ)
  | [] => return ([], runner)
  | .literal text :: rest => do
    let (out, runner) ← renderSegments host runner rest
    return (text ++ out, runner)
  | .code block :: rest => do
    let (shown, runner) ← runner.renderBlock host block
    let (out, runner) ← renderSegments host runner rest
    return (shown ++ out, runner)

/-- Stops the interpreters of a list, in order. -/
def stopEach (host : Host ω σ) :
    List (Text × Interpreter σ) → Task ω (List (Text × Interpreter σ))
  | [] => return []
  | (name, interpreter) :: rest => do
    let interpreter ← interpreter.stop host
    return (name, interpreter) :: (← stopEach host rest)

/-- Stops every interpreter. -/
def stopSessions (host : Host ω σ) (runner : CodeRunner σ) : Task ω (CodeRunner σ) := do
  return { runner with interpreters := ⟨← stopEach host runner.interpreters.entries⟩ }

/-- The document with its blocks rendered. Every interpreter is stopped afterwards. -/
def run (host : Host ω σ) (runner : CodeRunner σ) (document : Text) :
    Task ω (Text × CodeRunner σ) := do
  let (out, runner) ← runner.renderSegments host (Segment.scan document)
  Task.emitAll (Segment.warnings document)
  return (out, ← runner.stopSessions host)

end CodeRunner

end Weave
