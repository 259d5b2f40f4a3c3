import Weave.Text.Basic

/-!
# Errors

The causes for which a document, a setting or a run is refused, with the wording of each.

## Main definitions

* `Weave.Error`: the causes.
* `Weave.Error.message`, `Weave.Error.code`, `Weave.Error.help?`: what is shown for a cause.
-/

namespace Weave

/-- A cause of failure. -/
inductive Error where
  /-- An operation of the system failed. -/
  | io (reason : Text)
  /-- A file that was named as input cannot be read. -/
  | readInput (path reason : Text)
  /-- A file that a document includes cannot be read. -/
  | includeNotFound (path reason : Text)
  /-- The option list of an include directive is malformed. -/
  | invalidIncludeOptions (raw : Text)
  /-- A settings file is malformed. -/
  | configParse (reason : Text)
  /-- The process of an interpreter could not be started. -/
  | interpreterSpawn (name reason : Text)
  /-- The process of an interpreter ended before it answered. -/
  | interpreterExited (name : Text)
  /-- The process of an interpreter did not answer in time. -/
  | interpreterTimeout (name : Text) (seconds : Nat)
  /-- The process of an interpreter could not be written to. -/
  | interpreterIo (name reason : Text)
  /-- A shell command could not be started. -/
  | shellSpawn (reason : Text)
  /-- A pattern that names files to leave out is malformed. -/
  | invalidExcludePattern (reason : Text)
  deriving Repr, DecidableEq

namespace Error

/-- The sentence that states the cause. -/
def message : Error → Text
  | io reason => reason
  | readInput path reason => "failed to read input `".toList ++ path ++ "`: ".toList ++ reason
  | includeNotFound path reason => "cannot include `".toList ++ path ++ "`: ".toList ++ reason
  | invalidIncludeOptions raw => "invalid include options: `".toList ++ raw ++ "`".toList
  | configParse reason => "failed to parse config file: ".toList ++ reason
  | interpreterSpawn name reason =>
    "failed to start interpreter `".toList ++ name ++ "`: ".toList ++ reason
  | interpreterExited name =>
    "interpreter `".toList ++ name ++ "` exited before acknowledging the request".toList
  | interpreterTimeout name seconds =>
    "interpreter `".toList ++ name ++ "` did not respond within ".toList ++ Text.ofNat seconds ++
      ['s']
  | interpreterIo name reason =>
    "failed to talk to interpreter `".toList ++ name ++ "`: ".toList ++ reason
  | shellSpawn reason => "failed to run shell command: ".toList ++ reason
  | invalidExcludePattern reason => "invalid exclude pattern: ".toList ++ reason

/-- The code under which the cause is documented. -/
def code : Error → String
  | io _ => "mdoc::io_error"
  | readInput .. => "mdoc::read_input"
  | includeNotFound .. => "mdoc::include_not_found"
  | invalidIncludeOptions _ => "mdoc::invalid_include_options"
  | configParse _ => "mdoc::config_parse"
  | interpreterSpawn .. => "mdoc::interpreter_spawn"
  | interpreterExited _ => "mdoc::interpreter_exited"
  | interpreterTimeout .. => "mdoc::interpreter_timeout"
  | interpreterIo .. => "mdoc::interpreter_io"
  | shellSpawn _ => "mdoc::shell_spawn"
  | invalidExcludePattern _ => "mdoc::invalid_exclude_pattern"

/-- A hint at what mends the cause. -/
def help? : Error → Option String
  | includeNotFound .. =>
    some "include paths are resolved relative to the directory of the document"
  | invalidIncludeOptions _ =>
    some "supported options are `ini=<marker>` and `end=<marker>`, separated by commas"
  | configParse _ =>
    some "check that mdoc.toml is valid TOML with [shell] and/or [interpreters.<name>] tables"
  | interpreterSpawn .. => some "make sure the interpreter command is installed and on PATH"
  | interpreterExited _ => some "the session is restarted on the next code block"
  | interpreterTimeout .. => some "raise `timeout_secs` for this interpreter in mdoc.toml"
  | _ => none

end Error

end Weave
