import Weave.CommandLine.Basic
import Weave.Files.Walk
import Weave.Settings.Reader

/-!
# Tools of an invocation

An invocation leaves to others what is not particular to it: how arguments, documents of settings
and globs are read, and how a directory is walked.

## Main definitions

* `Weave.Toolkit`: what an invocation leaves to others.
* `Weave.Toolkit.standard`: the toolkit of the program.
-/

namespace Weave

/-- What an invocation leaves to others. -/
structure Toolkit where
  /-- The command line of some arguments. -/
  commandLine : List Text → Except UsageFault CommandLine
  /-- The settings of a document, or why it is refused. -/
  settings : Text → Except Text Settings
  Glob : Type
  /-- The glob of a text, or why the text is none. -/
  glob : Text → Except Text Glob
  /-- The names that one of some globs matches, or why the globs cannot be put together. -/
  globSet : List Glob → Except Text (Text → Bool)
  /-- What a walk comes to from the directory at a place, at any depth if it is recursive. -/
  walk : FileTree → (recursive : Bool) → (place : List Text) → List Walk.Found

namespace Toolkit

/-- The toolkit of the program. -/
def standard : Toolkit where
  commandLine := CommandLine.parse
  settings := Settings.read
  Glob := List Pattern
  glob text := (Glob.parse false text).mapError fun failure ↦
    "error parsing glob '".toList ++ text ++ "': ".toList ++ failure.message
  globSet globs := .ok (Glob.isMatch globs.flatten)
  walk := Walk.run

end Toolkit

end Weave
