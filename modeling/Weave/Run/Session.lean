import Weave.Run.Host
import Weave.Run.Prompt
import Weave.Run.Task
import Weave.Settings.Basic
import Weave.Error

/-!
# Sessions

A session is a child process that has been started and answers requests. After every request it is
made to print its sentinel; its answer is what it prints before the line that holds the prompt
directly followed by the sentinel.

## Main definitions

* `Weave.Session`: a child and the lines it has printed that nobody has taken yet.
* `Weave.Session.collect?`: the first answer in a queue of lines.
* `Weave.Session.start`, `Weave.Session.request`, `Weave.Session.close`.
-/

namespace Weave

/-- A child process and what it has printed so far. -/
structure Session (σ : Type) where
  child : σ
  /-- The lines that have been printed and not yet taken, in order. -/
  queue : List Text := []
  /-- The start of a line whose end has not been printed yet. -/
  unfinished : Bytes := []
  /-- Whether the output of the child has come to an end. -/
  ended : Bool := false

namespace Session

variable {ω σ : Type}

/-- The text of a printed line, without the line breaks at its end. -/
def lineText (line : Bytes) : Text := Text.trimEndWhere Text.isLineBreak (Utf8.decode line)

/-- The complete lines of some output and the start of the line after them; `before` is what has
been printed of the first line, in reverse order. -/
def splitOutput (before : Bytes) : Bytes → List Text × Bytes
  | [] => ([], before.reverse)
  | b :: bs =>
    if b = 10 then
      let (ls, rest) := splitOutput [] bs
      (lineText (b :: before).reverse :: ls, rest)
    else splitOutput (b :: before) bs

/-- The session after its child has reacted. A line that is unfinished when the output ends is a
line. -/
def absorb (session : Session σ) (reaction : Reaction σ) : Session σ :=
  let (ls, rest) := splitOutput session.unfinished.reverse reaction.output
  if reaction.ended then
    { child := reaction.child
      queue := session.queue ++ ls ++ (if rest = [] then [] else [lineText rest])
      unfinished := []
      ended := true }
  else
    { session with child := reaction.child, queue := session.queue ++ ls, unfinished := rest }

/-- The first answer in a queue of lines and the lines after it: the lines before the one that holds
the marker, without their prompts, each with a line feed. Lines of prompts only are left out. -/
def collect? (marker prompt : Text) : List Text → Option (Text × List Text)
  | [] => none
  | line :: rest =>
    if Text.holds marker line then some ([], rest)
    else
      (collect? marker prompt rest).map fun (answer, rest) ↦
        match Prompt.strip? prompt line with
        | none => (answer, rest)
        | some text => (text ++ '\n' :: answer, rest)

/-- The last second that the clock can show. -/
def lastSecond : Nat := 9223372036854775807

/-- Checks that the clock can show a moment that lies some seconds ahead. -/
def checkDeadline (host : Host ω σ) (seconds : Nat) : Task ω Unit := do
  if lastSecond < host.clock (← Task.world) + seconds then Task.halt .clockOverflow

/-- Checks that the reader of output can be named after the interpreter. -/
def checkName (name : Text) : Task ω Unit :=
  if '\x00' ∈ name then Task.halt .readerName else return

/-- Sends a line to the child. -/
def sendLine (host : Host ω σ) (name : Text) (profile : Profile) (session : Session σ)
    (line : Text) : Task ω (Except Error (Session σ)) := do
  match ← Task.await .endlessTurn fun w ↦
    host.send w session.child line profile.timeoutSecs with
  | .taken reaction => return .ok (session.absorb reaction)
  | .closed => return .error (.interpreterExited name)
  | .failed reason => return .error (.interpreterIo name reason)

/-- Sends a command to the child. An empty one is not sent. -/
def sendCommand (host : Host ω σ) (name : Text) (profile : Profile) (session : Session σ)
    (command : Text) : Task ω (Except Error (Session σ)) :=
  if command = [] then return .ok session else sendLine host name profile session command

/-- Takes the next answer from the queue. If the marker is not among the lines, the child has ended,
or it is late, or it is waited for without end. -/
def readAnswer (name : Text) (profile : Profile) (session : Session σ) :
    Task ω (Except Error Text × Session σ) := do
  match collect? profile.readyMarker profile.prompt session.queue with
  | some (answer, rest) => return (.ok answer, { session with queue := rest })
  | none =>
    let session := { session with queue := [] }
    if session.ended then return (.error (.interpreterExited name), session)
    else
      match profile.timeoutSecs with
      | some seconds => return (.error (.interpreterTimeout name seconds), session)
      | none => Task.halt .endlessWait

/-- Closes the input of the child and waits some seconds for its end. -/
def close (host : Host ω σ) (name : Text) (grace : Nat) (session : Session σ) : Task ω Unit := do
  checkDeadline host grace
  match ← Task.await .endlessEnd fun w ↦ host.finish w session.child grace with
  | .exited => return
  | .killed =>
    Task.emit ⟨.warn, "interpreter did not exit in time, killing it".toList,
      [("interpreter", name)]⟩
  | .lost reason =>
    Task.emit ⟨.warn, "failed to wait for interpreter".toList,
      [("interpreter", name), ("error", reason)]⟩

/-- Makes the child print its sentinel and takes what it printed before. -/
def synchronize (host : Host ω σ) (name : Text) (profile : Profile) (session : Session σ) :
    Task ω (Except Error Text × Session σ) := do
  match ← sendLine host name profile session profile.echoCommand with
  | .error e => return (.error e, session)
  | .ok session => readAnswer name profile session

/-- Kills a child of which no session can be made, and reports why. -/
def discard (host : Host ω σ) (name reason : Text) (child : σ) :
    Task ω (Except Error (Session σ)) := do
  Task.await .endlessEnd fun w ↦ host.kill w child
  return .error (.interpreterSpawn name reason)

/-- Starts a child and takes what it prints before it answers for the first time. A child that does
not answer is closed at once. -/
def start (host : Host ω σ) (name : Text) (profile : Profile) :
    Task ω (Except Error (Session σ)) := do
  match ← Task.act fun w ↦ host.start w profile.command profile.args profile.timeoutSecs with
  | .failed reason =>
    return .error (.interpreterSpawn name ('\x60' :: profile.command ++ "`: ".toList ++ reason))
  | .uncaptured child => discard host name "failed to capture output streams".toList child
  | .unread child reason =>
    checkName name
    discard host name reason child
  | .running reaction =>
    checkName name
    profile.timeoutSecs.forM (checkDeadline host)
    let session : Session σ := absorb { child := reaction.child } reaction
    match ← synchronize host name profile session with
    | (.ok _, session) => return .ok session
    | (.error e, session) =>
      session.close host name 0
      return .error e

/-- Sends a command to the child and takes its answer, without the line breaks at its end. -/
def request (host : Host ω σ) (name : Text) (profile : Profile) (command : Text)
    (session : Session σ) : Task ω (Except Error Text × Session σ) := do
  profile.timeoutSecs.forM (checkDeadline host)
  match ← sendCommand host name profile session command with
  | .error e => return (.error e, session)
  | .ok session =>
    match ← synchronize host name profile session with
    | (.ok answer, session) => return (.ok (Text.trimEndWhere Text.isLineBreak answer), session)
    | (.error e, session) => return (.error e, session)

end Session

end Weave
