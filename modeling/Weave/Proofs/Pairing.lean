import Weave.Proofs.Reach
import Weave.Proofs.Responder

/-!
# Requests and their answers

The answer to every request is made by the lines that the child printed in reply to that request, as
long as it prints the marker only where a reply ends: in no line of its banner, and in no reply to a
block.

## Main definitions

* `Weave.Responder.Obeys`: the marker is printed in reply to one command only.
* `Weave.Responder.call`, `Weave.Responder.answers`: the answers that blocks should get.

## Main results

* `Weave.Interpreter.Executes.call`: one block gets its answer.
* `Weave.Interpreter.executeAll_answers`: so do any blocks in a row.
* `Weave.Greeter.executeAll_shifted`: a banner or a block that prints the marker shifts the
  answers.
-/

namespace Weave

variable {ω σ τ : Type}

namespace Responder

variable (r : Responder τ) (profile : Profile) (name : Text)

/-- In reply to an input, the marker is only printed where the reply to the command that makes the
sentinel be printed ends. -/
structure Obeys : Prop where
  echoes : r.Echoes profile
  quiet : ∀ state input, input ≠ profile.echoCommand →
    ∀ line ∈ (r.feed state input).1, profile.marks line = false

/-- The answer that a command should get from a child in some state, or from a child that is started
for it, and the state after it: the lines that are printed in reply to it and to the command that
makes the sentinel be printed, before the one that holds the marker. -/
def call (state : Option τ) (command : Text) : Except Error Text × Option τ :=
  let (printed, last) := r.converse (state.or (r.opening profile).2) (profile.inputs command)
  match last with
  | none => (.error (.interpreterExited name), none)
  | some s => (.ok (profile.answer printed), some s)

/-- The answers that commands should get one after the other. -/
def answers : Option τ → List Text → List (Except Error Text)
  | _, [] => []
  | state, command :: commands =>
    let (result, next) := r.call profile name state command
    result :: answers next commands

end Responder

section Pairing

variable {profile : Profile} {r : Responder τ} {state : Option τ}

namespace Responder.Obeys

variable (h : r.Obeys profile)
include h

variable (state) in
/-- What is printed in reply to a request ends with the marker. -/
theorem ends {command : Text} (hcommand : command = [] ∨ command ≠ profile.echoCommand) :
    profile.Ends (r.converse state (profile.inputs command)).1
      (r.converse state (profile.inputs command)).2 := by
  rw [converse_inputs]
  refine (h.echoes.ends _).append ?_
  unfold Profile.blockInputs
  split
  · simp [converse]
  · rw [converse_singleton]
    exact h.quiet state command (hcommand.resolve_left ‹_›)

/-- What is printed until a child has answered for the first time ends with the marker. -/
theorem opening_ends (hbanner : ∀ line ∈ r.banner, profile.marks line = false) :
    profile.Ends (r.opening profile).1 (r.opening profile).2 :=
  (h.echoes.ends _).append hbanner

end Responder.Obeys

/-! ### Blocks and their answers -/

/-- The standing of an interpreter that leaves no lines to be taken: its child, if any, has not
exited. -/
def atRest (state : Option τ) : Option (List Line × Option τ) := state.map fun s ↦ ([], some s)

/-- At rest, only the lines that are printed in reply to a request are there to be taken. -/
theorem Responder.Obeys.respond_atRest (h : r.Obeys profile)
    (hbanner : ∀ line ∈ r.banner, profile.marks line = false) (command : Text) :
    r.respond profile (atRest state) command =
      r.converse (state.or (r.opening profile).2) (profile.inputs command) := by
  cases state with
  | none => simp [respond, resumed, atRest, (h.opening_ends hbanner).behind_eq_nil]
  | some s => simp [respond, resumed, atRest]

namespace Interpreter

variable {host : Host ω σ} {view : σ → Option τ} {interpreter : Interpreter σ} {name : Text}

section Calls

variable (hplays : r.Plays host profile view) (hobeys : r.Obeys profile)
  (hbanner : ∀ line ∈ r.banner, profile.marks line = false)
include hplays hobeys hbanner

/-- A block gets its answer, and the interpreter is at rest again. -/
theorem Executes.call {w later : ω} {next : Interpreter σ} {body dir : Text}
    {result : Except Error Text} (hprofile : interpreter.profile = profile)
    (h : interpreter.Follows view (atRest state))
    (hcommand : profile.commandLine dir body = [] ∨
      profile.commandLine dir body ≠ profile.echoCommand)
    (hexecutes : Executes host interpreter body dir w (.ok (result, next)) later) :
    result = (r.call profile interpreter.name state (profile.commandLine dir body)).1 ∧
      next.Follows view
        (atRest (r.call profile interpreter.name state (profile.commandLine dir body)).2) := by
  subst hprofile
  have hresult := hexecutes.follows hobeys.echoes hplays h
  rw [hobeys.respond_atRest hbanner] at hresult
  have hends := hobeys.ends (state.or (r.opening interpreter.profile).2) hcommand
  unfold Responder.call
  -- The child goes on or not, and it has printed the marker exactly if it does.
  generalize r.converse (state.or (r.opening interpreter.profile).2) _ = conversation at *
  obtain ⟨printed, last⟩ := conversation
  cases result with
  | ok answer =>
    obtain ⟨⟨line, hline, hmarks⟩, rfl, hfollows⟩ := hresult
    cases last with
    | none => exact absurd hmarks (by simp [hends line hline])
    | some s =>
      dsimp only at hfollows hends
      rw [hends.behind_eq_nil] at hfollows
      exact ⟨rfl, hfollows⟩
  | error e =>
    obtain ⟨rfl, rfl, hfollows⟩ := hresult
    exact ⟨rfl, hfollows⟩

theorem execute_call (hname : interpreter.name = name) (hprofile : interpreter.profile = profile)
    (h : interpreter.Follows view (atRest state)) {body dir : Text}
    (hcommand : profile.commandLine dir body = [] ∨
      profile.commandLine dir body ≠ profile.echoCommand) :
    Task.Ensures (fun _ ↦ True) (interpreter.execute host body dir)
      (fun result _ ↦ result.2.name = name ∧ result.2.profile = profile ∧
        result.1 = (r.call profile name state (profile.commandLine dir body)).1 ∧
        result.2.Follows view (atRest (r.call profile name state (profile.commandLine dir body)).2))
      (fun _ _ ↦ host.Overruns name profile) := by
  subst hname hprofile
  intro scene _
  rcases hrun : (interpreter.execute host body dir).outcome scene with ⟨result, later⟩
  have hexecutes := (interpreter.execute_exits host body dir).of_outcome hrun
  cases result with
  | ok answered =>
    obtain ⟨hname, hprofile⟩ := hexecutes.keeps
    exact ⟨hname, hprofile, hexecutes.call hplays hobeys hbanner rfl h hcommand⟩
  | error reason => exact hexecutes.overruns hobeys.echoes hplays h

/-- Blocks in a row get their answers. -/
theorem executeAll_ensures
    (hname : interpreter.name = name) (hprofile : interpreter.profile = profile)
    (h : interpreter.Follows view (atRest state)) {calls : List (Text × Text)}
    (hcalls : ∀ call ∈ calls, profile.commandLine call.2 call.1 = [] ∨
      profile.commandLine call.2 call.1 ≠ profile.echoCommand) :
    Task.Ensures (fun _ ↦ True) (interpreter.executeAll host calls)
      (fun result _ ↦
        result.1 = r.answers profile name state
          (calls.map fun call ↦ profile.commandLine call.2 call.1) ∧
        ∃ last, result.2.Follows view (atRest last))
      (fun _ _ ↦ host.Overruns name profile) := by
  induction calls generalizing interpreter state with
  | nil => exact .pure fun scene _ ↦ ⟨rfl, state, h⟩
  | cons call calls ih =>
    obtain ⟨body, dir⟩ := call
    have hcommand := hcalls (body, dir) List.mem_cons_self
    refine (execute_call hplays hobeys hbanner hname hprofile h hcommand).bindResult
      fun (result, next) hnext ↦ ?_
    obtain ⟨hname, hprofile, hresult, hfollows⟩ := hnext
    refine (ih hname hprofile hfollows fun call hcall ↦
      hcalls call (List.mem_cons_of_mem _ hcall)).bindResult fun (results, last) hlast ↦ ?_
    obtain ⟨hresults, hlast⟩ := hlast
    refine .pure fun scene _ ↦ ⟨?_, hlast⟩
    dsimp only at hresult hresults
    rw [hresult, hresults]
    rfl

end Calls

/-- **Requests get their own answers.** A child obeys the profile and prints no marker in its
banner, the profile is safe, and no block is the command that makes the sentinel be printed. Then
any blocks in a row get the answers that they should get, and no line is left to be taken. -/
theorem executeAll_answers {now : Nat} (hplays : r.Plays host profile view)
    (hobeys : r.Obeys profile) (hbanner : ∀ line ∈ r.banner, profile.marks line = false)
    (hclock : ∀ world, host.clock world ≤ now) (hsafe : profile.IsSafe name now)
    (calls : List (Text × Text))
    (hcalls : ∀ call ∈ calls, profile.commandLine call.2 call.1 = [] ∨
      profile.commandLine call.2 call.1 ≠ profile.echoCommand) (scene : Scene ω) :
    ∃ last later,
      (({ name, profile } : Interpreter σ).executeAll host calls).outcome scene =
        (.ok (r.answers profile name none
          (calls.map fun call ↦ profile.commandLine call.2 call.1), last), later) ∧
      ∀ session, last.session = some session → session.queue = [] := by
  have hnew : ({ name, profile } : Interpreter σ).Follows view (atRest none) := rfl
  have hall := executeAll_ensures hplays hobeys hbanner rfl rfl hnew hcalls scene trivial
  rcases hrun : (({ name, profile } : Interpreter σ).executeAll host calls).outcome scene with
    ⟨result, later⟩
  rw [hrun] at hall
  cases result with
  | error reason => exact absurd hsafe (hall now hclock)
  | ok answered =>
    obtain ⟨results, last⟩ := answered
    obtain ⟨rfl, state, hlast⟩ := hall
    refine ⟨last, later, rfl, fun session hsession ↦ ?_⟩
    obtain ⟨-, unread, child, hstanding, hfollows⟩ := hlast.of_some hsession
    cases state with
    | none => cases hstanding
    | some s =>
      obtain ⟨rfl, -⟩ := Prod.mk.inj (Option.some.inj hstanding)
      exact hfollows.queue

end Interpreter

end Pairing

/-! ### A child that greets -/

/-- The host whose clock stands still and whose children print a text in reply to every line. -/
def Host.saying (printed : Text → Text) : Host Unit Unit where
  clock _ := 0
  readText _ _ := .error []
  isDirectory _ _ := false
  runCommand _ _ _ _ := (some (.error []), ())
  start _ _ _ _ := (.running ⟨(), [], false⟩, ())
  send _ _ line _ := (some (.taken ⟨(), Utf8.encode (printed line), false⟩), ())
  finish _ _ _ := (some .exited, ())
  kill _ _ := (some (), ())

/-- What blocks come to that are run in the root directory by an interpreter whose child plays a
responder, without the reasons of failures. -/
def Responder.results (r : Responder τ) (profile : Profile) (blocks : List Text) :
    Option (List (Option Text)) :=
  ((({ name := "repl".toList, profile } : Interpreter (Option τ)).executeAll r.host
    (blocks.map fun body ↦ (body, ['/']))).outcome { world := () }).1.toOption.map
      fun (results, _) ↦ results.map Except.toOption

namespace Greeter

/-- A shell that is asked for number signs. -/
def profile : Profile := { command := "sh".toList, echo := "echo '#########'".toList }

/-- The line of number signs. -/
def marker : Line := .ofText "#########".toList (by decide)

/-- The line that greets. -/
def greeting : Line := .ofText "hello".toList (by decide)

/-- The line that takes leave. -/
def farewell : Line := .ofText "bye".toList (by decide)

/-- A child that prints the number signs when it is asked for them, takes leave when it is told to,
and greets otherwise. -/
def responder (banner : List Line) : Responder Unit where
  banner
  initial := ()
  reply _ input :=
    if input = "echo '#########'".toList then .lines [marker] ()
    else if input = "exit".toList then .exit [farewell]
    else .lines [greeting] ()

theorem echoCommand_profile : profile.echoCommand = "echo '#########'".toList := by decide +kernel

theorem obeys (banner : List Line) : (responder banner).Obeys profile where
  echoes s := by
    rw [echoCommand_profile]
    exact ⟨[], marker, rfl, by simp, by decide +kernel⟩
  quiet state input hinput line hline := by
    rw [echoCommand_profile] at hinput
    cases state with
    | none => cases hline
    | some s =>
      have hquiet : profile.marks farewell = false ∧ profile.marks greeting = false := by
        decide +kernel
      by_cases hexit : input = "exit".toList
      · have hreply : (responder banner).reply s input = .exit [farewell] :=
          (if_neg hinput).trans (if_pos hexit)
        rw [(responder banner).feed_exit hreply, List.mem_singleton] at hline
        exact hline ▸ hquiet.1
      · have hreply : (responder banner).reply s input = .lines [greeting] () :=
          (if_neg hinput).trans (if_neg hexit)
        rw [(responder banner).feed_lines hreply, List.mem_singleton] at hline
        exact hline ▸ hquiet.2

theorem isSafe : profile.IsSafe "repl".toList 0 where
  name := by decide
  clock := by decide
  answer := nofun
  shutdown := by decide

/-- The answers that blocks should get. -/
def answers (banner : List Line) (blocks : List Text) : List (Except Error Text) :=
  (responder banner).answers profile "repl".toList none (blocks.map (profile.commandLine ['/']))

/-- A child that prints a banner and takes leave in between: the block that tells it to fails, and
the one after it is answered by another child. -/
theorem executeAll_greeting :
    (answers [greeting] ["echo hello".toList, "exit".toList, "echo hello".toList]).map
      Except.toOption = [some "hello".toList, none, some "hello".toList] ∧
    ∃ last later,
      (({ name := "repl".toList, profile } : Interpreter (Option Unit)).executeAll
        (responder [greeting]).host
        [("echo hello".toList, ['/']), ("exit".toList, ['/']),
          ("echo hello".toList, ['/'])]).outcome { world := () } =
        (.ok (answers [greeting] ["echo hello".toList, "exit".toList, "echo hello".toList], last),
          later) ∧
      ∀ session, last.session = some session → session.queue = [] :=
  ⟨by decide +kernel,
    Interpreter.executeAll_answers ((responder [greeting]).host_plays profile) (obeys [greeting])
      (by decide +kernel) (fun _ ↦ Nat.le_refl 0) isSafe _ (by decide +kernel) { world := () }⟩

/-- A block that is the command for the number signs, and a banner that holds them, shift the
answers of the blocks after them. -/
theorem executeAll_shifted :
    ((responder []).Obeys profile ∧
      (responder []).results profile ["echo '#########'".toList, "echo hello".toList] =
        some [some [], some []] ∧
      (answers [] ["echo '#########'".toList, "echo hello".toList]).map Except.toOption =
        [some [], some "hello".toList]) ∧
    ((responder [marker]).Obeys profile ∧
      (responder [marker]).results profile ["echo hello".toList, "echo hello".toList] =
        some [some [], some "hello".toList] ∧
      (answers [marker] ["echo hello".toList, "echo hello".toList]).map Except.toOption =
        [some "hello".toList, some "hello".toList]) :=
  ⟨⟨obeys [], by decide +kernel, by decide +kernel⟩,
    ⟨obeys [marker], by decide +kernel, by decide +kernel⟩⟩

end Greeter

end Weave
