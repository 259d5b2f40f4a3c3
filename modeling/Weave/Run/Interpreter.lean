import Weave.Run.Session
import Weave.Text.Line

/-!
# Interpreters

An interpreter runs blocks in one session, which it starts when it is needed and gives up when a
request fails.

## Main definitions

* `Weave.Profile.statements`, `Weave.Profile.commandLine`: a block as one input line.
* `Weave.Interpreter`, `Weave.Interpreter.execute`, `Weave.Interpreter.stop`.
-/

namespace Weave

/-- A source line up to its comment, without blanks around it. -/
def Profile.statement (profile : Profile) (line : Text) : Text :=
  match profile.comment with
  | none => Text.trim line
  | some marker =>
    match Text.breakOn? marker line with
    | none => Text.trim line
    | some (before, _) => Text.trim before

/-- The statements of a block: its lines without comments, those that are not empty. -/
def Profile.statements (profile : Profile) (body : Text) : List Text :=
  ((Text.lines body).map profile.statement).filter (· ≠ [])

/-- A block as one input line of the interpreter: the change of directory and the statements, joined
by the separator. -/
def Profile.commandLine (profile : Profile) (dir body : Text) : Text :=
  Text.joinWith profile.separator ((profile.chdirCommand? dir).toList ++ profile.statements body)

/-- An interpreter: its profile, the session that is running, and how many were started. -/
structure Interpreter (σ : Type) where
  name : Text
  profile : Profile
  session : Option (Session σ) := none
  spawnCount : Nat := 0

namespace Interpreter

variable {ω σ : Type}

/-- Whether a session is running. -/
def isReady (interpreter : Interpreter σ) : Bool := interpreter.session.isSome

/-- Closes the session, if one is running. -/
def stop (host : Host ω σ) (interpreter : Interpreter σ) : Task ω (Interpreter σ) := do
  match interpreter.session with
  | none => return interpreter
  | some session =>
    session.close host interpreter.name interpreter.profile.shutdownTimeoutSecs
    return { interpreter with session := none }

/-- Starts a session. -/
def start (host : Host ω σ) (interpreter : Interpreter σ) :
    Task ω (Except Error (Session σ) × Interpreter σ) := do
  Task.emit ⟨.info, "starting interpreter".toList,
    [("interpreter", interpreter.name), ("command", interpreter.profile.command)]⟩
  match ← Session.start host interpreter.name interpreter.profile with
  | .error e => return (.error e, interpreter)
  | .ok session =>
    Task.emit ⟨.info, "interpreter ready".toList, [("interpreter", interpreter.name)]⟩
    return (.ok session,
      { interpreter with session := some session, spawnCount := interpreter.spawnCount + 1 })

/-- The running session, which is started if there is none. -/
def ensureSession (host : Host ω σ) (interpreter : Interpreter σ) :
    Task ω (Except Error (Session σ) × Interpreter σ) :=
  match interpreter.session with
  | some session => return (.ok session, interpreter)
  | none => interpreter.start host

/-- Runs a block in a directory and returns what it printed. A request that fails closes the
session. -/
def execute (host : Host ω σ) (interpreter : Interpreter σ) (body dir : Text) :
    Task ω (Except Error Text × Interpreter σ) := do
  let command := interpreter.profile.commandLine dir body
  match ← interpreter.ensureSession host with
  | (.error e, interpreter) => return (.error e, interpreter)
  | (.ok session, interpreter) =>
    let (result, session) ← session.request host interpreter.name interpreter.profile command
    let interpreter := { interpreter with session := some session }
    match result with
    | .ok answer => return (.ok answer, interpreter)
    | .error e =>
      Task.emit ⟨.warn, "request failed, stopping session".toList,
        [("interpreter", interpreter.name), ("error", e.message)]⟩
      return (.error e, ← interpreter.stop host)

end Interpreter

end Weave
