import Weave.Registry
import Weave.Text.Search

/-!
# Settings

How code is run: the shell that runs commands, and the interpreters that stay alive between blocks,
each driven over its standard streams as its profile says.

## Main definitions

* `Weave.Profile`: how one interpreter is started, addressed and stopped.
* `Weave.ShellSettings`, `Weave.Settings`.
* `Weave.Settings.profiles`: the built-in profile with the configured ones laid over it.
* `Weave.RunOptions`: what one run is asked for.
-/

namespace Weave

/-- How an interpreter is driven. After every request it is made to print its sentinel, and its
answer ends at the line that holds the prompt directly followed by the sentinel. -/
structure Profile where
  /-- The program that is started. -/
  command : Text
  /-- Its arguments. -/
  args : List Text := []
  /-- Further language tags that select the profile. -/
  aliases : List Text := []
  /-- What the interpreter prints before it evaluates a line. -/
  prompt : Text := []
  /-- What marks the end of an answer. -/
  sentinel : Text := "#########".toList
  /-- The command that prints the sentinel, with a placeholder for it. -/
  echo : Text
  /-- What starts a comment in a source line. -/
  comment : Option Text := none
  /-- What joins the statements of a block into one line. -/
  separator : Text := [',']
  /-- The command that changes the directory, with a placeholder for it. -/
  chdir : Option Text := none
  /-- How many seconds an answer may take; without a number it may take any time. -/
  timeoutSecs : Option Nat := none
  /-- How many seconds the process has to end by itself before it is killed. -/
  shutdownTimeoutSecs : Nat := 10
  deriving Repr, DecidableEq

namespace Profile

/-- The placeholder for the sentinel. -/
def sentinelPlaceholder : Text := "\x7bsentinel\x7d".toList

/-- The placeholder for a directory. -/
def dirPlaceholder : Text := "\x7bdir\x7d".toList

/-- The command that makes the interpreter print its sentinel. -/
def echoCommand (profile : Profile) : Text :=
  Text.replaceAll sentinelPlaceholder profile.sentinel profile.echo

/-- What the line that ends an answer holds: the prompt directly followed by the sentinel. -/
def readyMarker (profile : Profile) : Text := profile.prompt ++ profile.sentinel

/-- The command that changes to a directory, if the profile has one. -/
def chdirCommand? (profile : Profile) (dir : Text) : Option Text :=
  profile.chdir.map (Text.replaceAll dirPlaceholder dir)

/-- Whether a language tag names the profile that stands under `name`. -/
def answersTo (profile : Profile) (name tag : Text) : Bool :=
  name = tag || profile.aliases.contains tag

/-- The name of the profile that is always there. -/
def builtinName : Text := "matlab".toList

/-- The profile that is always there. -/
def builtin : Profile where
  command := "matlab".toList
  args := ["-nosplash".toList, "-nodesktop".toList, "-nodisplay".toList]
  aliases := ["MATLAB".toList, "Matlab".toList]
  prompt := ['>', '>', ' ']
  echo := "disp(\"".toList ++ sentinelPlaceholder ++ "\")".toList
  comment := some ['%']
  chdir := some ("cd(\x27".toList ++ dirPlaceholder ++ "\x27)".toList)

end Profile

/-- The shell that runs commands. -/
structure ShellSettings where
  /-- The program that receives the joined commands. -/
  program : Text := "sh".toList
  /-- The arguments before the joined commands. -/
  args : List Text := ["-c".toList]
  deriving Repr, DecidableEq

/-- The settings of a run. -/
structure Settings where
  shell : ShellSettings := {}
  interpreters : Registry Profile := {}
  deriving Repr

/-- The profiles of a run: the built-in one with the configured ones laid over it. -/
def Settings.profiles (settings : Settings) : Registry Profile :=
  (Registry.ofList [(Profile.builtinName, Profile.builtin)]).overlay settings.interpreters

/-- What one run is asked for. -/
structure RunOptions where
  /-- Blocks are shown but not run. -/
  noExec : Bool := false
  /-- Every filter is reported before and after it runs. -/
  verbose : Bool := false
  /-- Blank lines are collapsed at the end. -/
  collapseBlankLines : Bool := false
  deriving Repr, DecidableEq

end Weave
