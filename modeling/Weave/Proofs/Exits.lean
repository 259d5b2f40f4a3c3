import Weave.Proofs.Ensures
import Weave.Run.Interpreter
import Weave.Run.ShellCommand

/-!
# Ways out

How each function of a session, of an interpreter and of the shell can come out, with everything
that it asks of the host on the way. What is proved of a call is proved of these ways, one at a
time.

## Main definitions

* `Weave.Task.Exits`: the ways in which a task can come out.
* `Weave.Session.Sends`, `Weave.Session.Reads`, `Weave.Session.Synchronizes`: the parts of a
  request.
* `Weave.Session.Starts`, `Weave.Session.Requests`, `Weave.Session.Closes`: the calls of a session.
* `Weave.Interpreter.Executes`, `Weave.Interpreter.Stops`: the calls of an interpreter.
* `Weave.ShellCommand.Executes`: a block for the shell.
* `Weave.Host.Shows`, `Weave.Host.ShowsDeadline`: the deadlines that the clock can show.

## Main results

* `Weave.Session.start_exits`, `Weave.Session.request_exits`, `Weave.Session.close_exits`,
  `Weave.Interpreter.execute_exits`, `Weave.Interpreter.stop_exits`,
  `Weave.ShellCommand.execute_exits`: there are no other ways.
-/

namespace Weave

variable {ω σ α β : Type}

/-! ### Ways out of a task -/

namespace Task

/-- The task comes out in one of the given ways: from a world, with a result or a halt, and in
another world. -/
def Exits (task : Task ω α) (exits : ω → Except Halt α → ω → Prop) : Prop :=
  ∀ scene, exits scene.world (task.outcome scene).1 (task.outcome scene).2.world

variable {task : Task ω α} {exits exits' : ω → Except Halt α → ω → Prop}

namespace Exits

theorem weaken (h : task.Exits exits)
    (hexits : ∀ w result later, exits w result later → exits' w result later) :
    task.Exits exits' :=
  fun scene ↦ hexits _ _ _ (h scene)

theorem pure {a : α} (h : ∀ w, exits w (.ok a) w) : (Pure.pure a : Task ω α).Exits exits :=
  fun scene ↦ h scene.world

theorem halt {reason : Halt} (h : ∀ w, exits w (.error reason) w) :
    (Task.halt reason : Task ω α).Exits exits :=
  fun scene ↦ h scene.world

/-- The second of two tasks starts where the first one came out. -/
theorem bind {next : α → Task ω β} {both : ω → Except Halt β → ω → Prop} (h : task.Exits exits)
    (hhalt : ∀ w reason later, exits w (.error reason) later → both w (.error reason) later)
    (hnext : ∀ w a, (next a).Exits fun mid result later ↦
      exits w (.ok a) mid → both w result later) :
    (task >>= next).Exits both := by
  intro scene
  have hscene := h scene
  rw [outcome_bind]
  rcases hrun : task.outcome scene with ⟨result, mid⟩
  rw [hrun] at hscene
  cases result with
  | ok a => exact hnext scene.world a mid hscene
  | error reason => exact hhalt _ _ _ hscene

/-- An event in front leaves the world as it is. -/
theorem emit_bind {next : Unit → Task ω α} (event : Event) (h : (next ()).Exits exits) :
    (Task.emit event >>= next).Exits exits :=
  fun scene ↦ h { scene with log := scene.log ++ [event] }

theorem act_bind {change : ω → α × ω} {next : α → Task ω β} {both : ω → Except Halt β → ω → Prop}
    (h : ∀ w a, (next a).Exits fun mid result later ↦ change w = (a, mid) → both w result later) :
    (Task.act change >>= next).Exits both := by
  intro scene
  rw [outcome_bind, outcome_act]
  exact h scene.world _ _ rfl

theorem world_bind {next : ω → Task ω α}
    (h : ∀ w, (next w).Exits fun mid result later ↦ mid = w → exits w result later) :
    (Task.world >>= next).Exits exits := by
  intro scene
  rw [outcome_bind, outcome_world]
  exact h scene.world scene rfl

theorem await_bind {reason : Halt} {change : ω → Option α × ω} {next : α → Task ω β}
    {both : ω → Except Halt β → ω → Prop}
    (hnone : ∀ w later, change w = (none, later) → both w (.error reason) later)
    (h : ∀ w a, (next a).Exits fun mid result later ↦
      change w = (some a, mid) → both w result later) :
    (Task.await reason change >>= next).Exits both := by
  intro scene
  rw [outcome_bind, outcome_await]
  rcases hchange : change scene.world with ⟨result, later⟩
  cases result with
  | some a => exact h scene.world a _ hchange
  | none => exact hnone _ _ hchange

/-- The way in which a task has come out. -/
theorem of_outcome (h : task.Exits exits) {scene later : Scene ω} {result : Except Halt α}
    (hrun : task.outcome scene = (result, later)) : exits scene.world result later.world := by
  have hscene := h scene
  rwa [hrun] at hscene

end Exits

end Task

/-! ### Deadlines -/

namespace Host

variable (host : Host ω σ) (w : ω)

/-- The clock can show the moment some seconds ahead. -/
def Shows (seconds : Nat) : Prop := host.clock w + seconds ≤ Session.lastSecond

/-- The clock can show the deadline of an answer. -/
def ShowsDeadline (profile : Profile) : Prop :=
  ∀ seconds, profile.timeoutSecs = some seconds → host.Shows w seconds

end Host

/-! ### Sessions -/

/-- The child that has been started, if there is one. -/
def Launch.child? : Launch σ → Option σ
  | failed _ => none
  | uncaptured child => some child
  | unread child _ => some child
  | running reaction => some reaction.child

/-- A launch of a child whose output is given to a reader. -/
inductive Launch.IsCaptured : Launch σ → Prop
  | unread (child : σ) (reason : Text) : IsCaptured (.unread child reason)
  | running (reaction : Reaction σ) : IsCaptured (.running reaction)

/-- A launch of a child of which no session can be made, with what is reported of it. -/
inductive Launch.Discards (name : Text) : Launch σ → σ → Text → Prop
  | uncaptured (child : σ) :
      Discards name (.uncaptured child) child "failed to capture output streams".toList
  | unread (hname : '\x00' ∉ name) (child : σ) (reason : Text) :
      Discards name (.unread child reason) child reason

theorem Launch.IsCaptured.exists_child? {launch : Launch σ} (h : launch.IsCaptured) :
    ∃ child, launch.child? = some child := by
  cases h <;> exact ⟨_, rfl⟩

theorem Launch.Discards.child?_eq {name : Text} {launch : Launch σ} {child : σ} {reason : Text}
    (h : launch.Discards name child reason) : launch.child? = some child := by
  cases h <;> rfl

namespace Session

variable (host : Host ω σ) (name : Text) (profile : Profile)

/-- The ways out of setting a deadline. -/
inductive Checks (shown : ω → Prop) (w : ω) : Except Halt Unit → ω → Prop
  | passed (h : shown w) : Checks shown w (.ok ()) w
  | late (h : ¬shown w) : Checks shown w (.error .clockOverflow) w

/-- The ways out of sending a line. -/
inductive Sends (session : Session σ) (line : Text) (w : ω) :
    Except Halt (Except Error (Session σ)) → ω → Prop
  | taken {reaction : Reaction σ} {later : ω}
      (h : host.send w session.child line profile.timeoutSecs = (some (.taken reaction), later)) :
      Sends session line w (.ok (.ok (session.absorb reaction))) later
  | closed {later : ω}
      (h : host.send w session.child line profile.timeoutSecs = (some .closed, later)) :
      Sends session line w (.ok (.error (.interpreterExited name))) later
  | failed {reason : Text} {later : ω}
      (h : host.send w session.child line profile.timeoutSecs = (some (.failed reason), later)) :
      Sends session line w (.ok (.error (.interpreterIo name reason))) later
  | endless {later : ω} (h : host.send w session.child line profile.timeoutSecs = (none, later)) :
      Sends session line w (.error .endlessTurn) later

/-- The ways out of sending a command. -/
inductive SendsCommand (session : Session σ) (command : Text) (w : ω) :
    Except Halt (Except Error (Session σ)) → ω → Prop
  | unsent (h : command = []) : SendsCommand session command w (.ok (.ok session)) w
  | sent {result : Except Halt (Except Error (Session σ))} {later : ω} (hne : command ≠ [])
      (h : Sends host name profile session command w result later) :
      SendsCommand session command w result later

/-- The ways out of taking an answer, which asks nothing of the host. -/
inductive Reads (session : Session σ) : Except Halt (Except Error Text × Session σ) → Prop
  | answered {answer : Text} {rest : List Text}
      (h : collect? profile.readyMarker profile.prompt session.queue = some (answer, rest)) :
      Reads session (.ok (.ok answer, { session with queue := rest }))
  | exited (h : collect? profile.readyMarker profile.prompt session.queue = none)
      (hended : session.ended = true) :
      Reads session (.ok (.error (.interpreterExited name), { session with queue := [] }))
  | late {seconds : Nat}
      (h : collect? profile.readyMarker profile.prompt session.queue = none)
      (hended : session.ended = false) (hseconds : profile.timeoutSecs = some seconds) :
      Reads session (.ok (.error (.interpreterTimeout name seconds), { session with queue := [] }))
  | endless (h : collect? profile.readyMarker profile.prompt session.queue = none)
      (hended : session.ended = false) (hseconds : profile.timeoutSecs = none) :
      Reads session (.error .endlessWait)

/-- The ways out of making the child print its sentinel and taking what it printed before. -/
inductive Synchronizes (session : Session σ) (w : ω) :
    Except Halt (Except Error Text × Session σ) → ω → Prop
  | unsent {e : Error} {later : ω}
      (h : Sends host name profile session profile.echoCommand w (.ok (.error e)) later) :
      Synchronizes session w (.ok (.error e, session)) later
  | halted {reason : Halt} {later : ω}
      (h : Sends host name profile session profile.echoCommand w (.error reason) later) :
      Synchronizes session w (.error reason) later
  | read {next : Session σ} {result : Except Halt (Except Error Text × Session σ)} {later : ω}
      (hsends : Sends host name profile session profile.echoCommand w (.ok (.ok next)) later)
      (h : Reads name profile next result) : Synchronizes session w result later

/-- The ways out of closing a session. -/
inductive Closes (grace : Nat) (session : Session σ) (w : ω) : Except Halt Unit → ω → Prop
  | late (h : ¬host.Shows w grace) : Closes grace session w (.error .clockOverflow) w
  | closed {ending : Ending} {later : ω} (hshows : host.Shows w grace)
      (h : host.finish w session.child grace = (some ending, later)) :
      Closes grace session w (.ok ()) later
  | endless {later : ω} (hshows : host.Shows w grace)
      (h : host.finish w session.child grace = (none, later)) :
      Closes grace session w (.error .endlessEnd) later

/-- The ways out of starting a session. -/
inductive Starts (w : ω) : Except Halt (Except Error (Session σ)) → ω → Prop
  | failed {reason : Text} {later : ω}
      (h : host.start w profile.command profile.args profile.timeoutSecs =
        (.failed reason, later)) :
      Starts w (.ok (.error (.interpreterSpawn name
        ('\x60' :: profile.command ++ "`: ".toList ++ reason)))) later
  | discarded {launch : Launch σ} {child : σ} {reason : Text} {mid later : ω}
      (h : host.start w profile.command profile.args profile.timeoutSecs = (launch, mid))
      (hlaunch : launch.Discards name child reason)
      (hkill : host.kill mid child = (some (), later)) :
      Starts w (.ok (.error (.interpreterSpawn name reason))) later
  | undying {launch : Launch σ} {child : σ} {reason : Text} {mid later : ω}
      (h : host.start w profile.command profile.args profile.timeoutSecs = (launch, mid))
      (hlaunch : launch.Discards name child reason)
      (hkill : host.kill mid child = (none, later)) :
      Starts w (.error .endlessEnd) later
  | unnamed {launch : Launch σ} {later : ω}
      (h : host.start w profile.command profile.args profile.timeoutSecs = (launch, later))
      (hlaunch : launch.IsCaptured) (hname : '\x00' ∈ name) : Starts w (.error .readerName) later
  | late {reaction : Reaction σ} {later : ω}
      (h : host.start w profile.command profile.args profile.timeoutSecs =
        (.running reaction, later))
      (hname : '\x00' ∉ name) (hshows : ¬host.ShowsDeadline later profile) :
      Starts w (.error .clockOverflow) later
  | halted {reaction : Reaction σ} {mid later : ω} {reason : Halt}
      (h : host.start w profile.command profile.args profile.timeoutSecs = (.running reaction, mid))
      (hname : '\x00' ∉ name) (hshows : host.ShowsDeadline mid profile)
      (hsync : Synchronizes host name profile (absorb { child := reaction.child } reaction) mid
        (.error reason) later) :
      Starts w (.error reason) later
  | ready {reaction : Reaction σ} {mid later : ω} {answer : Text} {session : Session σ}
      (h : host.start w profile.command profile.args profile.timeoutSecs = (.running reaction, mid))
      (hname : '\x00' ∉ name) (hshows : host.ShowsDeadline mid profile)
      (hsync : Synchronizes host name profile (absorb { child := reaction.child } reaction) mid
        (.ok (.ok answer, session)) later) :
      Starts w (.ok (.ok session)) later
  | unready {reaction : Reaction σ} {mid between later : ω} {e : Error} {session : Session σ}
      (h : host.start w profile.command profile.args profile.timeoutSecs = (.running reaction, mid))
      (hname : '\x00' ∉ name) (hshows : host.ShowsDeadline mid profile)
      (hsync : Synchronizes host name profile (absorb { child := reaction.child } reaction) mid
        (.ok (.error e, session)) between)
      (hcloses : Closes host 0 session between (.ok ()) later) :
      Starts w (.ok (.error e)) later
  | unclosed {reaction : Reaction σ} {mid between later : ω} {e : Error} {session : Session σ}
      {reason : Halt}
      (h : host.start w profile.command profile.args profile.timeoutSecs = (.running reaction, mid))
      (hname : '\x00' ∉ name) (hshows : host.ShowsDeadline mid profile)
      (hsync : Synchronizes host name profile (absorb { child := reaction.child } reaction) mid
        (.ok (.error e, session)) between)
      (hcloses : Closes host 0 session between (.error reason) later) :
      Starts w (.error reason) later

/-- The ways out of a request. -/
inductive Requests (command : Text) (session : Session σ) (w : ω) :
    Except Halt (Except Error Text × Session σ) → ω → Prop
  | late (h : ¬host.ShowsDeadline w profile) :
      Requests command session w (.error .clockOverflow) w
  | unsent {e : Error} {later : ω} (hshows : host.ShowsDeadline w profile)
      (h : SendsCommand host name profile session command w (.ok (.error e)) later) :
      Requests command session w (.ok (.error e, session)) later
  | untaken {reason : Halt} {later : ω} (hshows : host.ShowsDeadline w profile)
      (h : SendsCommand host name profile session command w (.error reason) later) :
      Requests command session w (.error reason) later
  | answered {next last : Session σ} {mid later : ω} {answer : Text}
      (hshows : host.ShowsDeadline w profile)
      (hsends : SendsCommand host name profile session command w (.ok (.ok next)) mid)
      (hsync : Synchronizes host name profile next mid (.ok (.ok answer, last)) later) :
      Requests command session w (.ok (.ok (Text.trimEndWhere Text.isLineBreak answer), last)) later
  | failed {next last : Session σ} {mid later : ω} {e : Error}
      (hshows : host.ShowsDeadline w profile)
      (hsends : SendsCommand host name profile session command w (.ok (.ok next)) mid)
      (hsync : Synchronizes host name profile next mid (.ok (.error e, last)) later) :
      Requests command session w (.ok (.error e, last)) later
  | halted {next : Session σ} {mid later : ω} {reason : Halt}
      (hshows : host.ShowsDeadline w profile)
      (hsends : SendsCommand host name profile session command w (.ok (.ok next)) mid)
      (hsync : Synchronizes host name profile next mid (.error reason) later) :
      Requests command session w (.error reason) later

variable {host name profile} in
/-- Taking an answer keeps the child. -/
theorem Reads.child_eq {session last : Session σ} {result : Except Error Text}
    (h : Reads name profile session (.ok (result, last))) : last.child = session.child := by
  cases h <;> rfl

theorem checkDeadline_exits (seconds : Nat) :
    (checkDeadline host seconds).Exits (Checks fun w ↦ host.Shows w seconds) := by
  intro scene
  rw [checkDeadline, Task.outcome_bind, Task.outcome_world]
  dsimp only
  split
  · exact .late (Nat.not_le.mpr ‹_›)
  · exact .passed (Nat.not_lt.mp ‹_›)

theorem checkAnswer_exits : (profile.timeoutSecs.forM (checkDeadline host)).Exits
    (Checks fun w ↦ host.ShowsDeadline w profile) := by
  cases hseconds : profile.timeoutSecs with
  | none => exact .pure fun w ↦ .passed fun seconds h ↦ by cases hseconds.symm.trans h
  | some seconds =>
    have hiff (w : ω) : host.Shows w seconds ↔ host.ShowsDeadline w profile := by
      simp [Host.ShowsDeadline, hseconds]
    refine (checkDeadline_exits host seconds).weaken fun w result later h ↦ ?_
    cases h with
    | passed h => exact .passed ((hiff w).mp h)
    | late h => exact .late (mt (hiff w).mpr h)

theorem sendLine_exits (session : Session σ) (line : Text) :
    (sendLine host name profile session line).Exits (Sends host name profile session line) := by
  refine .await_bind (fun w later h ↦ .endless h) fun w delivery ↦ ?_
  cases delivery with
  | taken reaction => exact .pure fun later h ↦ .taken h
  | closed => exact .pure fun later h ↦ .closed h
  | failed reason => exact .pure fun later h ↦ .failed h

theorem sendCommand_exits (session : Session σ) (command : Text) :
    (sendCommand host name profile session command).Exits
      (SendsCommand host name profile session command) := by
  unfold sendCommand
  split
  · exact .pure fun w ↦ .unsent ‹_›
  · exact (sendLine_exits host name profile session command).weaken fun w result later h ↦
      .sent ‹_› h

theorem readAnswer_exits (session : Session σ) : (readAnswer name profile session).Exits
    fun (w : ω) result later ↦ later = w ∧ Reads name profile session result := by
  unfold readAnswer
  cases hcollect : collect? profile.readyMarker profile.prompt session.queue with
  | some found => exact .pure fun w ↦ ⟨rfl, .answered hcollect⟩
  | none =>
    dsimp only
    split
    · exact .pure fun w ↦ ⟨rfl, .exited hcollect ‹_›⟩
    · have hended : session.ended = false := Bool.not_eq_true _ ▸ ‹¬session.ended = true›
      cases hseconds : profile.timeoutSecs with
      | some seconds => exact .pure fun w ↦ ⟨rfl, .late hcollect hended hseconds⟩
      | none => exact .halt fun w ↦ ⟨rfl, .endless hcollect hended hseconds⟩

theorem synchronize_exits (session : Session σ) :
    (synchronize host name profile session).Exits (Synchronizes host name profile session) := by
  refine (sendLine_exits host name profile session profile.echoCommand).bind
    (fun w reason later ↦ .halted) fun w sent ↦ ?_
  cases sent with
  | error e => exact .pure fun later ↦ .unsent
  | ok next =>
    refine (readAnswer_exits name profile next).weaken ?_
    rintro mid result _ ⟨rfl, hreads⟩ hsends
    exact .read hsends hreads

theorem close_exits (grace : Nat) (session : Session σ) :
    (close host name grace session).Exits (Closes host grace session) := by
  refine (checkDeadline_exits host grace).bind ?_ fun w _ ↦
    .await_bind ?_ fun mid ending ↦ ?_
  · rintro w reason later ⟨-⟩
    exact .late ‹_›
  · rintro mid later h ⟨hshows⟩
    exact .endless hshows h
  · cases ending <;>
    · intro scene h hchecks
      cases hchecks with
      | passed hshows => exact .closed hshows h

theorem discard_exits {launch : Launch σ} {child : σ} {reason : Text}
    (hlaunch : launch.Discards name child reason) (w : ω) :
    (discard host name reason child).Exits fun mid result later ↦
      host.start w profile.command profile.args profile.timeoutSecs = (launch, mid) →
        Starts host name profile w result later :=
  .await_bind (fun _ _ hkill h ↦ .undying h hlaunch hkill) fun _ _ ↦
    .pure fun _ hkill h ↦ .discarded h hlaunch hkill

theorem start_exits : (Session.start host name profile).Exits (Starts host name profile) := by
  refine .act_bind fun w launch ↦ ?_
  cases launch with
  | failed reason => exact .pure fun later h ↦ .failed h
  | uncaptured child => exact discard_exits host name profile (.uncaptured child) w
  | unread child reason =>
    dsimp only
    rw [checkName]
    split
    · exact .halt fun later h ↦ .unnamed h (.unread child reason) ‹_›
    · exact discard_exits host name profile (.unread ‹_› child reason) w
  | running reaction =>
    dsimp only
    rw [checkName]
    split
    · exact .halt fun later h ↦ .unnamed h (.running reaction) ‹_›
    -- Each step is taken from the world `mid` in which the child has been started.
    refine ((checkAnswer_exits host profile).bind ?_ fun mid _ ↦
      (synchronize_exits host name profile _).bind ?_ fun again result ↦ ?_ :
        Task.Exits _ fun mid result later ↦
          host.start w profile.command profile.args profile.timeoutSecs =
            (.running reaction, mid) → Starts host name profile w result later)
    · rintro mid reason later hchecks h
      cases hchecks with
      | late hlate => exact .late h ‹_› hlate
    · rintro between reason later hsync hchecks h
      cases hchecks with
      | passed hshows => exact .halted h ‹_› hshows hsync
    · obtain ⟨result, session⟩ := result
      cases result with
      | ok answer =>
        refine .pure fun later hsync hchecks h ↦ ?_
        cases hchecks with
        | passed hshows => exact .ready h ‹_› hshows hsync
      | error e =>
        refine (close_exits host name 0 session).bind ?_ fun between _ ↦ .pure ?_
        · rintro between reason later hcloses hsync hchecks h
          cases hchecks with
          | passed hshows => exact .unclosed h ‹_› hshows hsync hcloses
        · rintro later hcloses hsync hchecks h
          cases hchecks with
          | passed hshows => exact .unready h ‹_› hshows hsync hcloses

theorem request_exits (command : Text) (session : Session σ) :
    (request host name profile command session).Exits
      (Requests host name profile command session) := by
  refine (checkAnswer_exits host profile).bind ?_ fun w _ ↦
    (sendCommand_exits host name profile session command).bind ?_ fun again sent ↦ ?_
  · rintro w reason later ⟨-⟩
    exact .late ‹_›
  · rintro mid reason later hsends hchecks
    cases hchecks with
    | passed hshows => exact .untaken hshows hsends
  · cases sent with
    | error e =>
      refine .pure fun later hsends hchecks ↦ ?_
      cases hchecks with
      | passed hshows => exact .unsent hshows hsends
    | ok next =>
      refine (synchronize_exits host name profile next).bind ?_ fun mid result ↦ ?_
      · rintro mid reason later hsync hsends hchecks
        cases hchecks with
        | passed hshows => exact .halted hshows hsends hsync
      · obtain ⟨result, last⟩ := result
        cases result with
        | ok answer =>
          refine .pure fun later hsync hsends hchecks ↦ ?_
          cases hchecks with
          | passed hshows => exact .answered hshows hsends hsync
        | error e =>
          refine .pure fun later hsync hsends hchecks ↦ ?_
          cases hchecks with
          | passed hshows => exact .failed hshows hsends hsync

end Session

/-! ### Interpreters -/

namespace Interpreter

variable (host : Host ω σ) (interpreter : Interpreter σ)

/-- The ways out of stopping. -/
inductive Stops (w : ω) : Except Halt (Interpreter σ) → ω → Prop
  | idle (h : interpreter.session = none) : Stops w (.ok interpreter) w
  | closed {session : Session σ} {later : ω} (h : interpreter.session = some session)
      (hcloses : session.Closes host interpreter.profile.shutdownTimeoutSecs w (.ok ()) later) :
      Stops w (.ok { interpreter with session := none }) later
  | halted {session : Session σ} {later : ω} {reason : Halt}
      (h : interpreter.session = some session)
      (hcloses : session.Closes host interpreter.profile.shutdownTimeoutSecs w (.error reason)
        later) :
      Stops w (.error reason) later

/-- The ways out of starting a session if none is running. -/
inductive Readies (w : ω) : Except Halt (Except Error (Session σ) × Interpreter σ) → ω → Prop
  | running {session : Session σ} (h : interpreter.session = some session) :
      Readies w (.ok (.ok session, interpreter)) w
  | started {session : Session σ} {later : ω} (h : interpreter.session = none)
      (hstarts : Session.Starts host interpreter.name interpreter.profile w (.ok (.ok session))
        later) :
      Readies w (.ok (.ok session, { interpreter with
        session := some session
        spawnCount := interpreter.spawnCount + 1 })) later
  | failed {e : Error} {later : ω} (h : interpreter.session = none)
      (hstarts :
        Session.Starts host interpreter.name interpreter.profile w (.ok (.error e)) later) :
      Readies w (.ok (.error e, interpreter)) later
  | halted {reason : Halt} {later : ω} (h : interpreter.session = none)
      (hstarts : Session.Starts host interpreter.name interpreter.profile w (.error reason) later) :
      Readies w (.error reason) later

/-- The ways out of running a block. -/
inductive Executes (body dir : Text) (w : ω) :
    Except Halt (Except Error Text × Interpreter σ) → ω → Prop
  | unready {next : Interpreter σ} {e : Error} {later : ω}
      (h : interpreter.Readies host w (.ok (.error e, next)) later) :
      Executes body dir w (.ok (.error e, next)) later
  | unstarted {reason : Halt} {later : ω} (h : interpreter.Readies host w (.error reason) later) :
      Executes body dir w (.error reason) later
  | answered {next : Interpreter σ} {session last : Session σ} {mid later : ω} {answer : Text}
      (h : interpreter.Readies host w (.ok (.ok session, next)) mid)
      (hrequests : Session.Requests host next.name next.profile
        (interpreter.profile.commandLine dir body) session mid (.ok (.ok answer, last)) later) :
      Executes body dir w (.ok (.ok answer, { next with session := some last })) later
  | halted {next : Interpreter σ} {session : Session σ} {mid later : ω} {reason : Halt}
      (h : interpreter.Readies host w (.ok (.ok session, next)) mid)
      (hrequests : Session.Requests host next.name next.profile
        (interpreter.profile.commandLine dir body) session mid (.error reason) later) :
      Executes body dir w (.error reason) later
  | failed {next stopped : Interpreter σ} {session last : Session σ} {mid between later : ω}
      {e : Error} (h : interpreter.Readies host w (.ok (.ok session, next)) mid)
      (hrequests : Session.Requests host next.name next.profile
        (interpreter.profile.commandLine dir body) session mid (.ok (.error e, last)) between)
      (hstops : Stops host { next with session := some last } between (.ok stopped) later) :
      Executes body dir w (.ok (.error e, stopped)) later
  | unstopped {next : Interpreter σ} {session last : Session σ} {mid between later : ω} {e : Error}
      {reason : Halt} (h : interpreter.Readies host w (.ok (.ok session, next)) mid)
      (hrequests : Session.Requests host next.name next.profile
        (interpreter.profile.commandLine dir body) session mid (.ok (.error e, last)) between)
      (hstops : Stops host { next with session := some last } between (.error reason) later) :
      Executes body dir w (.error reason) later

theorem stop_exits : (interpreter.stop host).Exits (Stops host interpreter) := by
  unfold stop
  cases hsession : interpreter.session with
  | none => exact .pure fun w ↦ .idle hsession
  | some session =>
    exact (session.close_exits host interpreter.name _).bind (fun w reason later ↦ .halted hsession)
      fun w _ ↦ .pure fun later ↦ .closed hsession

theorem ensureSession_exits :
    (interpreter.ensureSession host).Exits (Readies host interpreter) := by
  unfold ensureSession
  cases hsession : interpreter.session with
  | some session => exact .pure fun w ↦ .running hsession
  | none =>
    refine .emit_bind _ ((Session.start_exits host interpreter.name interpreter.profile).bind
      (fun w reason later ↦ .halted hsession) fun w result ↦ ?_)
    cases result with
    | error e => exact .pure fun later ↦ .failed hsession
    | ok session => exact .emit_bind _ (.pure fun later ↦ .started hsession)

theorem execute_exits (body dir : Text) :
    (interpreter.execute host body dir).Exits (Executes host interpreter body dir) := by
  refine (interpreter.ensureSession_exits host).bind (fun w reason later ↦ .unstarted)
    fun w ready ↦ ?_
  obtain ⟨result, next⟩ := ready
  cases result with
  | error e => exact .pure fun later ↦ .unready
  | ok session =>
    refine (Session.request_exits host next.name next.profile _ session).bind
      (fun mid reason later hrequests h ↦ .halted h hrequests) fun mid result ↦ ?_
    obtain ⟨result, last⟩ := result
    cases result with
    | ok answer => exact .pure fun later hrequests h ↦ .answered h hrequests
    | error e =>
      exact .emit_bind _ ((stop_exits host { next with session := some last }).bind
        (fun between reason later hstops hrequests h ↦ .unstopped h hrequests hstops)
        fun between stopped ↦ .pure fun later hstops hrequests h ↦ .failed h hrequests hstops)

/-! ### What becomes of an interpreter -/

variable {host interpreter}
variable {next : Interpreter σ} {session : Session σ} {e : Error} {w later : ω}

theorem Stops.eq (h : Stops host interpreter w (.ok next) later) :
    next = { interpreter with session := none } := by
  cases h with
  | idle hnone => rw [← hnone]
  | closed _ _ => rfl

/-- The number of a session that is started is counted. -/
theorem Readies.eq_of_ok (h : Readies host interpreter w (.ok (.ok session, next)) later) :
    next = { interpreter with
      session := some session
      spawnCount := interpreter.spawnCount + if interpreter.isReady then 0 else 1 } := by
  cases h with
  | running hsession =>
    rw [isReady, hsession, Option.isSome_some, if_pos rfl, Nat.add_zero, ← hsession]
  | started hnone _ =>
    rw [isReady, hnone]
    rfl

theorem Readies.eq_of_error (h : Readies host interpreter w (.ok (.error e, next)) later) :
    next = interpreter ∧ interpreter.session = none := by
  cases h with
  | failed hnone _ => exact ⟨rfl, hnone⟩

/-- A block that is answered leaves a session running. -/
theorem Executes.eq_of_ok {body dir answer : Text}
    (h : Executes host interpreter body dir w (.ok (.ok answer, next)) later) :
    ∃ session, next = { interpreter with
      session := some session
      spawnCount := interpreter.spawnCount + if interpreter.isReady then 0 else 1 } := by
  cases h with
  | @answered ready _ last _ _ _ hreadies _ =>
    obtain rfl := hreadies.eq_of_ok
    exact ⟨last, rfl⟩

/-- A block that fails leaves no session. One may have been started for it. -/
theorem Executes.eq_of_error {body dir : Text}
    (h : Executes host interpreter body dir w (.ok (.error e, next)) later) :
    next = { interpreter with session := none } ∧ interpreter.session = none ∨
      next = { interpreter with
        session := none
        spawnCount := interpreter.spawnCount + if interpreter.isReady then 0 else 1 } := by
  cases h with
  | unready hreadies =>
    obtain ⟨rfl, hnone⟩ := hreadies.eq_of_error
    exact .inl ⟨by rw [← hnone], hnone⟩
  | failed hreadies _ hstops =>
    obtain rfl := hreadies.eq_of_ok
    exact .inr hstops.eq

/-- An interpreter keeps its name and its profile. -/
theorem Executes.keeps {body dir : Text} {result : Except Error Text}
    (h : Executes host interpreter body dir w (.ok (result, next)) later) :
    next.name = interpreter.name ∧ next.profile = interpreter.profile := by
  cases result with
  | ok answer =>
    obtain ⟨session, rfl⟩ := h.eq_of_ok
    exact ⟨rfl, rfl⟩
  | error e => rcases h.eq_of_error with ⟨rfl, -⟩ | rfl <;> exact ⟨rfl, rfl⟩

end Interpreter

/-! ### Shell commands -/

namespace ShellCommand

variable (host : Host ω σ) (settings : ShellSettings) (body dir : Text)

/-- What keeps a block from being run in a directory that does not exist. -/
def missing : Error :=
  .shellSpawn ("working directory `".toList ++ dir ++ "` does not exist".toList)

/-- The ways out of running a block in the shell. -/
inductive Executes (w : ω) : Except Halt (Except Error Text) → ω → Prop
  | empty (h : join body = []) : Executes w (.ok (.ok [])) w
  | missing (hne : join body ≠ []) (h : host.isDirectory w dir = false) :
      Executes w (.ok (.error (missing dir))) w
  | failed {reason : Text} {later : ω} (hne : join body ≠ []) (hdir : host.isDirectory w dir = true)
      (h : host.runCommand w settings.program (settings.args ++ [join body]) dir =
        (some (.error reason), later)) :
      Executes w (.ok (.error (.shellSpawn
        ('\x60' :: settings.program ++ "`: ".toList ++ reason)))) later
  | ran {output : Bytes} {later : ω} (hne : join body ≠ []) (hdir : host.isDirectory w dir = true)
      (h : host.runCommand w settings.program (settings.args ++ [join body]) dir =
        (some (.ok output), later)) :
      Executes w (.ok (.ok (Utf8.decode output))) later
  | endless {later : ω} (hne : join body ≠ []) (hdir : host.isDirectory w dir = true)
      (h : host.runCommand w settings.program (settings.args ++ [join body]) dir = (none, later)) :
      Executes w (.error .endlessCommand) later

theorem execute_exits :
    (ShellCommand.execute host settings body dir).Exits (Executes host settings body dir) := by
  unfold ShellCommand.execute
  dsimp only
  split
  · exact .pure fun w ↦ .empty ‹_›
  refine .world_bind fun w ↦ ?_
  cases hdir : host.isDirectory w dir with
  | false =>
    rw [if_pos (by rfl)]
    refine .pure fun mid ↦ ?_
    rintro rfl
    exact .missing ‹_› hdir
  | true =>
    rw [if_neg (by decide)]
    refine .await_bind ?_ fun mid result ↦ ?_
    · rintro mid later h rfl
      exact .endless ‹_› hdir h
    · cases result with
      | error reason =>
        refine .pure fun later h ↦ ?_
        rintro rfl
        exact .failed ‹_› hdir h
      | ok output =>
        refine .pure fun later h ↦ ?_
        rintro rfl
        exact .ran ‹_› hdir h

end ShellCommand

end Weave
