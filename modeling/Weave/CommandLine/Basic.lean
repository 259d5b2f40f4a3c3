import Weave.CommandLine.Arguments

/-!
# The command line

A command line says which documents are to be read and what is to be done with them.

## Main definitions

* `Weave.Subcommand`, `Weave.CommandLine`.
* `Weave.CommandLine.parse`: the command line of some arguments.
-/

namespace Weave

/-- A command that applies one filter. -/
inductive SingleFilter where
  | comment
  | inclusion
  | contents
  | execute (noExec : Bool)
  | blankLines
  deriving Repr, DecidableEq

/-- What is to be done. -/
inductive Subcommand where
  /-- A document is passed through all filters. -/
  | parse (input : Text) (output : Option Text) (beside noExec collapse : Bool)
  /-- Every source in a directory is built. -/
  | make (path : Text) (recursive noExec collapse : Bool) (exclude : List Text)
  /-- A document is passed through one filter. -/
  | filter (filter : SingleFilter) (input : Text) (output : Option Text)
  deriving Repr, DecidableEq

/-- A command line. -/
structure CommandLine where
  verbose : Bool := false
  noColor : Bool := false
  config : Option Text := none
  subcommand : Option Subcommand := none
  deriving Repr, DecidableEq

namespace CommandLine

/-! ### What can be given -/

/-- A switch that is written long. -/
def switch (name : String) : Parameter := { name, kind := .switch, long := some name }

/-- A switch that is written long or short. -/
def shortSwitch (name : String) (short : Char) : Parameter :=
  { name, kind := .switch, short := some short, long := some name }

/-- An operand. -/
def operand (name : String) : Parameter := { name, kind := .path }

/-- The options of every level. -/
def globalOptions : List Parameter :=
  [shortSwitch "verbose" 'v', switch "no-color",
    { name := "config", kind := .path, long := some "config" },
    { name := "help", kind := .help, short := some 'h', long := some "help" }]

/-- The subcommands with what they take. -/
def subcommands : List (String × CommandLevel) :=
  let filter (options : List Parameter) : CommandLevel :=
    { options := globalOptions ++ options
      operands := [operand "input", operand "output"]
      required := ["input"] }
  [("parse",
      { options := globalOptions ++
          [{ name := "output", kind := .path, short := some 'o', long := some "output" },
            shortSwitch "md" 'm', switch "no-exec", switch "intro"]
        operands := [operand "input"]
        required := ["input"] }),
    ("make",
      { options := globalOptions ++
          [shortSwitch "recursive" 'r', switch "no-exec", switch "intro",
            { name := "exclude", kind := .patterns, short := some 'e', long := some "exclude" }]
        operands := [operand "path"] }),
    ("comment", filter []), ("include", filter []), ("toc", filter []),
    ("exec", filter [switch "no-exec"]), ("remove-intro", filter [])]

/-- What comes before the subcommand. -/
def topLevel : CommandLevel where
  options := globalOptions ++
    [{ name := "version", kind := .version, short := some 'V', long := some "version" }]
  subcommands := subcommands.map Prod.fst ++ ["help"]

/-! ### What is given -/

/-- The fault that a request for help comes to: help on the program, on a subcommand or on help, or
a subcommand that there is not. -/
def helpFault : List Text → UsageFault
  | [] => .displayHelp
  | [name] =>
    if topLevel.subcommands.any fun known ↦ known.toList = name then .displayHelp
    else .invalidSubcommand
  | _ => .invalidSubcommand

/-- The subcommand of a name with what it has been given. -/
def subcommandOf (name : String) (given : Arguments.Given) : Subcommand :=
  let has := Arguments.has given
  let input := (Arguments.value? given "input").getD []
  let output := Arguments.value? given "output"
  let filter (filter : SingleFilter) : Subcommand := .filter filter input output
  match name with
  | "parse" => .parse input output (has "md") (has "no-exec") (has "intro")
  | "make" =>
    .make ((Arguments.value? given "path").getD ['.']) (has "recursive") (has "no-exec")
      (has "intro")
      ((given.lookup "exclude").getD [])
  | "comment" => filter .comment
  | "include" => filter .inclusion
  | "toc" => filter .contents
  | "exec" => filter (.execute (has "no-exec"))
  | _ => filter .blankLines

/-- The command line of some arguments. Global options hold wherever they are given, and the value
of the last level counts. -/
def parse (args : List Text) : Except UsageFault CommandLine := do
  let (progress, rest) ← Arguments.readLevel topLevel args {}
  let inner ←
    match rest with
    | none => pure none
    | some (name, args) =>
      if name = "help" then throw (helpFault args)
      else
        match subcommands.lookup name with
        | none => throw .invalidSubcommand
        | some level =>
          let (progress, _) ← Arguments.readLevel level args {}
          pure (some (name, ← Arguments.finish level progress))
  let given ← Arguments.finish topLevel progress
  let innerGiven := (inner.map Prod.snd).getD []
  return {
    verbose := Arguments.has given "verbose" || Arguments.has innerGiven "verbose"
    noColor := Arguments.has given "no-color" || Arguments.has innerGiven "no-color"
    config := (Arguments.value? innerGiven "config").or (Arguments.value? given "config")
    subcommand := inner.map fun (name, given) ↦ subcommandOf name given }

end CommandLine

end Weave
