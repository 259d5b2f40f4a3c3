import Weave.Text.Octets

/-!
# Shell syntax

A command is made of words, and a word of parts that are expanded when the command runs. Parts hold
commands in turn, as in a command substitution.

## Main definitions

* `Weave.Shell.Part`, `Weave.Shell.Word`: a word before it is expanded.
* `Weave.Shell.Redirection`, `Weave.Shell.Command`: what can be run.
-/

namespace Weave.Shell

/-- How a file is opened by a redirection. -/
inductive Opening where
  | read
  | write
  | append
  | update
  deriving Repr, DecidableEq

mutual

/-- A part of a word. A quoted part is neither split nor matched against file names. -/
inductive Part where
  | text (octets : Octets) (quoted : Bool)
  | parameter (name : Octets) (use : Use) (quoted : Bool)
  /-- What a command prints. -/
  | output (command : Command) (quoted : Bool)
  /-- The value of an arithmetic expression. -/
  | number (expression : List Part) (quoted : Bool)
  /-- A tilde that stands for the home directory. -/
  | home

/-- What is taken of a parameter. The flag `orEmpty` says that an empty value counts as unset. -/
inductive Use where
  | value
  | length
  | otherwise (orEmpty : Bool) (word : List Part)
  | assigned (orEmpty : Bool) (word : List Part)
  | demanded (orEmpty : Bool) (word : List Part)
  | instead (orEmpty : Bool) (word : List Part)
  | without (atEnd longest : Bool) (pattern : List Part)

/-- A change of a stream for one command. -/
inductive Redirection where
  | file (stream : Nat) (opening : Opening) (target : List Part)
  /-- The stream becomes that of a number, or is closed by a minus sign. -/
  | copy (stream : Nat) (source : List Part)
  | document (stream : Nat) (body : List Part)

/-- A command. -/
inductive Command where
  | nothing
  | simple (assignments : List (Octets × List Part)) (words : List (List Part))
      (redirections : List Redirection)
  | pipeline (stages : List Command)
  | negated (command : Command)
  /-- The second command runs only if the first one succeeds. -/
  | both (first second : Command)
  /-- The second command runs only if the first one fails. -/
  | either (first second : Command)
  | sequence (first second : Command)
  | background (command : Command)
  | subshell (command : Command)
  | branch (condition body otherwise : Command)
  /-- The body runs as long as the condition has the outcome `success`. -/
  | loop (success : Bool) (condition body : Command)
  /-- The body runs for every item, or for every positional parameter. -/
  | each (name : Octets) (items : Option (List (List Part))) (body : Command)
  | choice (subject : List Part) (cases : List (List (List Part) × Command))
  | define (name : Octets) (body : Command)
  | redirected (command : Command) (redirections : List Redirection)

end

/-- A word: its parts in order. -/
abbrev Word := List Part

instance : Inhabited Command := ⟨.nothing⟩

/-- The octets of a word that is a plain text without quotes. -/
def Word.plain? : Word → Option Octets
  | [] => some []
  | .text octets false :: rest => (plain? rest).map (octets ++ ·)
  | _ => none

/-- A part before other parts, joined with the first of them if both are plain text. -/
def Word.cons : Part → Word → Word
  | .text octets quoted, .text more quoted' :: rest =>
    if quoted = quoted' then .text (octets ++ more) quoted :: rest
    else .text octets quoted :: .text more quoted' :: rest
  | part, rest => part :: rest

end Weave.Shell
