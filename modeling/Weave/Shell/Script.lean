import Weave.Shell.Grammar
import Weave.Shell.State

/-!
# Texts as commands

A text is run command by command, each read when the one before it has ended. Traps are such texts.
What is run in a copy of a shell leaves the shell itself as it was.

## Main definitions

* `Weave.Shell.Script.run`: all commands of a text.
* `Weave.Shell.Script.runCaught`, `Weave.Shell.Script.finish`: what traps run.
* `Weave.Shell.isolated`, `Weave.Shell.capture`: actions in a copy of a shell.
-/

namespace Weave.Shell

/-- Runs the commands within a command. -/
abbrev Inner := Command → Action Nat

namespace Script

/-- Runs the complete commands of a text in order and returns the status of the last one. -/
def run (inner : Inner) (octets : Octets) : Action Nat := do
  let status ← iterate patience (fun (progress : Octets × Nat) ↦ do
    match Grammar.complete.run ⟨progress.1, true⟩ with
    | .error fault => fail fault.message
    | .ok (none, _) => return Sum.inr progress.2
    | .ok (some command, input) =>
      let status ← inner command
      modify ({ · with status })
      return Sum.inl (input.rest, status)) (octets, 0)
  return status.getD 0

/-! ### Traps -/

/-- Runs the trap of a signal, after which the status is what it was. -/
def runTrap (inner : Inner) (signal : Nat) : Action Unit := do
  let state ← get
  match state.traps.lookup signal with
  | none => return ()
  | some command =>
    let _ ← run inner command
    modify ({ · with status := state.status })

/-- Runs the traps of the signals that have arrived. -/
def runCaught (inner : Inner) : Action Unit := do
  let state ← get
  if !state.caught.isEmpty then
    set { state with caught := [] }
    state.caught.forM (runTrap inner)

/-- The status of a shell that has ended. -/
def statusOf : Except Escape Nat → Nat
  | .ok status => status
  | .error (.leave status) => status
  | .error (.replaced status) => status
  | .error (.leaveFunction status) => status
  | .error (.leaveLoops _) => 0
  | .error (.nextRound _) => 0
  | .error (.killed signal) => 128 + signal

/-- The end of a shell: what is trapped there is run, unless the shell was killed or replaced. -/
def finish (inner : Inner) (outcome : Except Escape Nat) : Action Nat := do
  match outcome with
  | .error (.killed signal) => throw (.killed signal)
  | .error (.replaced status) => return status
  | outcome =>
    let status := statusOf outcome
    modify ({ · with status })
    let command := ((← get).traps.lookup Signal.atExit).getD []
    modify fun state ↦
      { state with traps := state.traps.filter fun (signal, _) ↦ signal ≠ Signal.atExit }
    match ← attempt (run inner command) with
    | .error (.leave status) => return status
    | .error (.killed signal) => throw (.killed signal)
    | _ => return status

end Script

/-! ### Copies -/

/-- Receives a signal: it is trapped, or ignored, or kills the process. -/
def receive (signal : Nat) : Action Unit := do
  let state ← get
  match if signal = Signal.kill then none else state.traps.lookup signal with
  | some command => if !command.isEmpty then set { state with caught := state.caught ++ [signal] }
  | none => if signal ≠ 0 && !Signal.isHarmless signal then throw (.killed signal)

/-- Receives the signals that others have sent to this process. -/
def receiveSent : Action Unit := do
  let state ← get
  if !state.isCopy then (← proc (Kernel.takeSignals state.process)).forM receive

/-- Runs an action in a copy of the shell, which is given up afterwards. The action cannot escape
from anything but the copy. Traps do not go over to the copy, but what is ignored does. -/
def isolated (inner : Inner) (change : State → State) (action : Action Nat) : Action Nat := do
  let before ← get
  let traps := before.traps.filter fun (_, command) ↦ command.isEmpty
  set { change before with traps, isCopy := true }
  let outcome ← attempt (do Script.finish inner (← attempt action))
  set before
  receiveSent
  return Script.statusOf outcome

/-- What an action prints in a copy of the shell, and its status. -/
def capture (inner : Inner) (action : Action Nat) : Action (Octets × Nat) := do
  let stream ← proc (Kernel.addStream (.sink []))
  let status ← isolated inner (·.redirect 1 stream) action
  return (← proc (Kernel.written stream), status)

end Weave.Shell
