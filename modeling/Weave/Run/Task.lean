import Weave.Log

/-!
# Tasks

A task changes the world, writes to the log, and may bring the whole run to a halt. What it has done
before a halt remains done.

## Main definitions

* `Weave.Halt`: why a run does not come to an end by itself.
* `Weave.Task`, `Weave.Task.emit`, `Weave.Task.act`, `Weave.Task.await`, `Weave.Task.halt`.
* `Weave.Task.outcome`, `Weave.Task.run`: what a task comes to.
-/

namespace Weave

/-- Why a run does not come to an end by itself. -/
inductive Halt where
  /-- A deadline lies beyond the last second that the clock can show. -/
  | clockOverflow
  /-- The name of a reader of output holds a NUL. -/
  | readerName
  /-- A line is waited for without a deadline and never comes. -/
  | endlessWait
  /-- A child never takes the line that it is sent, or never pauses while it prints. -/
  | endlessTurn
  /-- A child never ends that has been closed or killed, or its output never pauses. -/
  | endlessEnd
  /-- A command never ends. -/
  | endlessCommand
  deriving Repr, DecidableEq

/-- The world and what has been written to the log so far. -/
structure Scene (ω : Type) where
  world : ω
  log : List Event := []

/-- A computation that changes the world and writes to the log. -/
abbrev Task (ω : Type) := ExceptT Halt (StateM (Scene ω))

namespace Task

variable {ω α : Type}

/-- What a task that starts in a scene comes to, and the scene that it leaves. -/
def outcome (task : Task ω α) (scene : Scene ω) : Except Halt α × Scene ω :=
  StateT.run (ExceptT.run task) scene

/-- The result of a task and the scene after it, unless the task comes to a halt. -/
def run (task : Task ω α) (scene : Scene ω) : Except Halt (α × Scene ω) :=
  match task.outcome scene with
  | (.ok result, scene) => .ok (result, scene)
  | (.error reason, _) => .error reason

/-- Writes an event to the log. -/
def emit (event : Event) : Task ω Unit :=
  modify fun scene ↦ { scene with log := scene.log ++ [event] }

/-- Writes events to the log in order. -/
def emitAll (events : List Event) : Task ω Unit :=
  modify fun scene ↦ { scene with log := scene.log ++ events }

/-- The world as it is. -/
def world : Task ω ω := do return (← get).world

/-- Changes the world. -/
def act (change : ω → α × ω) : Task ω α :=
  modifyGet fun scene ↦
    let (result, world) := change scene.world
    (result, { scene with world })

/-- Brings the run to a halt. -/
def halt (reason : Halt) : Task ω α := throw reason

/-- Changes the world in a way that may never come to an end, which brings the run to a halt. -/
def await (reason : Halt) (change : ω → Option α × ω) : Task ω α := do
  match ← act change with
  | some result => return result
  | none => halt reason

end Task

end Weave
