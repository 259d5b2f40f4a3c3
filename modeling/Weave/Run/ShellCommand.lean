import Weave.Run.Host
import Weave.Run.Task
import Weave.Settings.Basic
import Weave.Text.Line
import Weave.Error

/-!
# Shell commands

A block for the shell is run as one command line in a new process: its lines joined so that the
first one that fails ends the chain.

## Main definitions

* `Weave.ShellCommand.join`: the command line of a block.
* `Weave.ShellCommand.execute`: what a block prints.
-/

namespace Weave.ShellCommand

variable {ω σ : Type}

/-- What stands between two commands of which the second runs only if the first succeeds. -/
def andThen : Text := [' ', '&', '&', ' ']

/-- The lines of a block that are not blank, without the carriage returns at their ends. -/
def commands (body : Text) : List Text :=
  ((Text.lines body).map (Text.trimEndWhere (· = '\r'))).filter fun line ↦ !Text.allBlank line

/-- The command line of a block. -/
def join (body : Text) : Text := Text.joinWith andThen (commands body)

/-- Runs a block in a directory and returns what it printed. A block without commands is not run. -/
def execute (host : Host ω σ) (settings : ShellSettings) (body dir : Text) :
    Task ω (Except Error Text) := do
  let command := join body
  if command = [] then return .ok []
  else if !host.isDirectory (← Task.world) dir then
    return .error (.shellSpawn ("working directory `".toList ++ dir ++ "` does not exist".toList))
  else
    let args := settings.args ++ [command]
    match ← Task.await .endlessCommand fun w ↦
      host.runCommand w settings.program args dir with
    | .error reason =>
      return .error (.shellSpawn ('\x60' :: settings.program ++ "`: ".toList ++ reason))
    | .ok output => return .ok (Utf8.decode output)

end Weave.ShellCommand
