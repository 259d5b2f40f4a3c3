import Weave.Text.Utf8

/-!
# Hosts

A host is what a run needs of the system: files, a clock, commands, and child processes that are
talked to over their standard streams. Everything that sessions, blocks and pipelines do is stated
for an arbitrary host. A command or a child need not come to an end: an operation that waits for it
then has no result, and the world is the one in which it is waited for.

## Main definitions

* `Weave.Reaction`, `Weave.Launch`, `Weave.Delivery`, `Weave.Ending`: what a child does.
* `Weave.Host`: the operations.
-/

namespace Weave

/-- What a child process does when it is started or has been sent a line. -/
structure Reaction (σ : Type) where
  /-- The child afterwards. -/
  child : σ
  /-- What it prints within the time that it is given. -/
  output : Bytes
  /-- Whether its output has come to an end. -/
  ended : Bool

/-- What comes of starting a child. -/
inductive Launch (σ : Type) where
  /-- There is no child. -/
  | failed (reason : Text)
  /-- There is a child, but nothing that it prints can be had. -/
  | uncaptured (child : σ)
  /-- There is a child, but no reader of its output can be started. -/
  | unread (child : σ) (reason : Text)
  | running (reaction : Reaction σ)

/-- What comes of sending a line to a child. -/
inductive Delivery (σ : Type) where
  | taken (reaction : Reaction σ)
  /-- The child does not read any more. -/
  | closed
  | failed (reason : Text)

/-- How a child ends after its input has been closed. -/
inductive Ending where
  | exited
  /-- It did not end in time and was killed. -/
  | killed
  /-- It could not be waited for and was killed. -/
  | lost (reason : Text)
  deriving Repr, DecidableEq

/-- What a run needs of the system; `ω` is the state of the world and `σ` that of a child. -/
structure Host (ω σ : Type) where
  /-- The seconds that the clock shows. -/
  clock : ω → Nat
  /-- The text of the file at a path, or why it cannot be read. -/
  readText : ω → (path : Text) → Except Text Text
  /-- Whether a path leads to a directory. -/
  isDirectory : ω → (path : Text) → Bool
  /-- Runs a program in a directory until it ends, and returns what it prints; nothing if it never
  ends. -/
  runCommand : ω → (program : Text) → (args : List Text) → (dir : Text) →
    Option (Except Text Bytes) × ω
  /-- Starts a child. -/
  start : ω → (program : Text) → (args : List Text) → (allowed : Option Nat) → Launch σ × ω
  /-- Sends a line to a child; nothing if the child never takes it, or prints in reply without ever
  pausing. -/
  send : ω → σ → (line : Text) → (allowed : Option Nat) → Option (Delivery σ) × ω
  /-- Closes the input of a child, gives it some seconds to end, and waits until its output pauses;
  nothing if that is never. -/
  finish : ω → σ → (grace : Nat) → Option Ending × ω
  /-- Kills a child and waits for its end; nothing if that never comes. -/
  kill : ω → σ → Option Unit × ω

end Weave
