import Weave.Proofs.Dispatching

/-!
# Runs that are cut short

Running a block, stopping an interpreter and running a document come to a result, whatever the
children do, exactly if the profiles of the interpreters that are called are safe. Only what never
comes is waited for without end.

## Main definitions

* `Weave.Task.Returns`: the task comes to a result, or waits without end.
* `Weave.Settings.Calls`: the profiles that the blocks of a document are dispatched to.

## Main results

* `Weave.Interpreter.Reaches.returns`, `Weave.CodeRunner.Reaches.returns`: with safe profiles,
  nothing is cut short.
* `Weave.Interpreter.isSafe_of_returns`, `Weave.CodeRunner.isSafe_of_returns`: nothing is cut short
  only with safe profiles.
* `Weave.isSafe_iff_returns`: safe profiles are those with which nothing is cut short.
* `Weave.CodeRunner.crashes_hello`: runs that are cut short.
-/

namespace Weave

variable {ω σ α : Type}

/-- The task comes to a result, or waits without end for something that never comes. -/
def Task.Returns (task : Task ω α) (scene : Scene ω) (hangs : ω → Halt → Prop) : Prop :=
  ∀ reason later, task.outcome scene = (.error reason, later) → hangs later.world reason

/-! ### Calls that are not cut short -/

/-- Calls of an interpreter with a safe profile come to a result, whatever the children do, unless
they wait without end. -/
theorem Interpreter.Reaches.returns {host : Host ω σ} {name : Text} {profile : Profile}
    {interpreter : Interpreter σ} {first scene : Scene ω} {commands : List Text} {now : Nat}
    (hclock : ∀ world, host.clock world ≤ now) (hsafe : profile.IsSafe name now)
    (h : Reaches host name profile first interpreter scene commands) :
    (∀ body dir, (interpreter.execute host body dir).Returns scene (host.Hangs profile)) ∧
      (interpreter.stop host).Returns scene (host.Hangs profile) := by
  obtain ⟨rfl, rfl, hsound⟩ := h.sound
  have htimely : ¬host.Overruns interpreter.name interpreter.profile :=
    fun hover ↦ hover now hclock hsafe
  refine ⟨fun body dir reason later hrun ↦ ?_, fun reason later hrun ↦ ?_⟩
  · exact (((interpreter.execute_exits host body dir).of_outcome hrun).halt hsound).resolve_right
      htimely
  · exact (((interpreter.stop_exits host).of_outcome hrun).halt hsound).resolve_right htimely

/-! ### Runs that are not cut short -/

/-- A block of the document is dispatched to the profile that stands under a name. -/
def Settings.Calls (settings : Settings) (document name : Text) (profile : Profile) : Prop :=
  ∃ block ∈ Segment.blocks (Segment.scan document),
    Language.resolve settings.profiles block.language = .interpreter name ∧
      settings.profiles.get? name = some profile

namespace CodeRunner

variable {host : Host ω σ} {runner last : CodeRunner σ} {first scene later : Scene ω}
  {options : RunOptions} {settings : Settings} {workspace document name : Text} {profile : Profile}
  {now : Nat}

/-- While no session is running, a run of a document concerns the interpreters that its blocks are
dispatched to. -/
theorem Concerns.calls (haligned : runner.Aligned settings)
    (hidle : ∀ name interpreter, (name, interpreter) ∈ runner.interpreters.entries →
      interpreter.isReady = false)
    (h : runner.Concerns (Segment.blocks (Segment.scan document)) name profile) :
    settings.Calls document name profile := by
  cases h with
  | ready hmem _ hready => cases (hidle _ _ hmem).symm.trans hready
  | @called interpreter block hget hprofile hblock hlanguage =>
    obtain ⟨found, hfound, -, hheld⟩ := haligned.exists_interpreter hlanguage
    cases hget.symm.trans hfound
    rw [language, haligned.profiles] at hlanguage
    exact ⟨block, hblock, hlanguage, hprofile ▸ hheld⟩

/-- A run of a document whose blocks are dispatched to safe profiles comes to a result, whatever the
processes do, unless it waits without end, in every state that is reached in which no session is
running. -/
theorem Reaches.returns (hclock : ∀ world, host.clock world ≤ now)
    (henabled : options.noExec = false)
    (h : Reaches host options settings workspace first runner scene)
    (hidle : ∀ name interpreter, (name, interpreter) ∈ runner.interpreters.entries →
      interpreter.isReady = false)
    (hsafe : ∀ name profile, settings.Calls document name profile → profile.IsSafe name now) :
    (runner.run host document).Returns scene
      (runner.Hangs host (Segment.blocks (Segment.scan document))) := by
  intro reason later hrun
  refine ((run_ensures host (h.sound henabled) document scene).halt rfl hrun).resolve_right ?_
  rintro ⟨name, profile, hconcerns, hover⟩
  exact hover now hclock (hsafe name profile (hconcerns.calls h.aligned hidle))

/-! ### Runs that are cut short -/

variable {line : Line} {world : Unit} {reason : Halt}

/-- With a child that says one line and exits, nothing is waited for without end. -/
theorem not_hangs_herald {runner : CodeRunner (Option Unit)} {blocks : List CodeBlock} :
    ¬runner.Hangs ((Responder.herald line).hostAt now) blocks world reason := by
  intro hhangs
  cases hhangs with
  | interpreter _ h => exact Responder.not_hangs_herald _ _ h
  | command _ _ _ h => cases h

/-- If blocks of an interpreter have been run whose child says the marker and exits, its profile is
safe. -/
theorem Rendering.isSafe {runner last : CodeRunner (Option Unit)} {scene later : Scene Unit}
    {steps : List (Step Unit)} {interpreter : Interpreter (Option Unit)}
    (h : Rendering ((Responder.herald line).hostAt now) runner scene steps last later)
    (hline : '\n' ∉ interpreter.profile.readyMarker → interpreter.profile.marks line = true)
    (hget : runner.interpreters.get? name = some interpreter) (hnone : interpreter.session = none)
    {step : Step Unit} (hstep : step ∈ steps)
    (hlanguage : runner.language step.block.language = .interpreter name) :
    interpreter.profile.IsSafe interpreter.name now := by
  induction h with
  | nil => cases hstep
  | @cons runner next last scene mid later block result steps hrun _ ih =>
    by_cases hblock : runner.language block.language = .interpreter name
    · obtain ⟨after, hexecute, -⟩ := dispatch_own hrun hblock hget
      exact ((interpreter.execute_exits _ _ _).of_outcome hexecute).isSafe rfl hline hnone
    · have hrest : step ∈ steps := by
        rcases List.mem_cons.mp hstep with rfl | hstep
        · exact absurd hlanguage hblock
        · exact hstep
      rw [← CodeRunner.language_eq (dispatch_keeps hrun).2.2.2] at hlanguage
      exact ih ((dispatch_other hrun hblock).trans hget) hrest hlanguage

theorem isReady_of_mem_new {interpreter : Interpreter σ}
    (h : (name, interpreter) ∈
      (CodeRunner.new options settings workspace : CodeRunner σ).interpreters.entries) :
    interpreter.isReady = false := by
  obtain ⟨entry, -, heq⟩ := List.mem_map.mp h
  rw [← (Prod.mk.inj heq).2]
  rfl

/-- If the first run of a document comes to a result with children that say the marker and exit, a
profile that is called is safe. -/
theorem isSafe_of_returns
    (hreturns : ((CodeRunner.new { options with noExec := false } settings workspace).run
        ((Responder.herald line).hostAt now) document).Returns { world := () }
      (CodeRunner.Hangs ((Responder.herald line).hostAt now)
        (.new { options with noExec := false } settings workspace)
        (Segment.blocks (Segment.scan document))))
    (hline : '\n' ∉ profile.readyMarker → profile.marks line = true)
    (hcalls : settings.Calls document name profile) : profile.IsSafe name now := by
  obtain ⟨block, hblock, hlanguage, hget⟩ := hcalls
  let host := (Responder.herald line).hostAt now
  let runner : CodeRunner (Option Unit) := .new { options with noExec := false } settings workspace
  have hreaches : Reaches host { options with noExec := false } settings workspace
      { world := () } runner { world := () } := .new
  -- The interpreter under the name is new, so that its first call tells whether it is safe.
  have hrunner : runner.language block.language = .interpreter name := hlanguage
  obtain ⟨interpreter, hinterpreter, rfl, hheld⟩ := hreaches.aligned.exists_interpreter hrunner
  cases hget.symm.trans hheld
  have hnone : interpreter.session = none := by
    simpa [Interpreter.isReady] using isReady_of_mem_new (Registry.mem_of_get? hinterpreter)
  rcases hrun : (runner.run host document).outcome { world := () } with ⟨result, later⟩
  cases result with
  | error reason => exact absurd (hreturns reason later hrun) not_hangs_herald
  | ok answered =>
    obtain ⟨steps, last, between, hsteps, hblocks, -⟩ :=
      (run_ensures host (hreaches.sound rfl) document { world := () }).result rfl hrun
    rw [← hblocks] at hblock
    obtain ⟨step, hstep, rfl⟩ := List.mem_map.mp hblock
    exact hsteps.isSafe hline hinterpreter hnone hstep hrunner

end CodeRunner

/-- If the first call of an interpreter comes to a result with a child that says the marker and
exits, its profile is safe. -/
theorem Interpreter.isSafe_of_returns {name : Text} {profile : Profile} {line : Line} {now : Nat}
    {scene : Scene Unit}
    (hreturns : (({ name, profile } : Interpreter (Option Unit)).execute
      ((Responder.herald line).hostAt now) [] []).Returns scene
        (((Responder.herald line).hostAt now).Hangs profile))
    (hline : '\n' ∉ profile.readyMarker → profile.marks line = true) :
    profile.IsSafe name now := by
  let interpreter : Interpreter (Option Unit) := { name, profile }
  rcases hrun :
    (interpreter.execute ((Responder.herald line).hostAt now) [] []).outcome scene with
    ⟨result, later⟩
  cases result with
  | error reason => exact absurd (hreturns reason later hrun) (Responder.not_hangs_herald _ _)
  | ok answered =>
    exact ((interpreter.execute_exits _ _ _).of_outcome hrun).isSafe rfl hline rfl

/-- **What cuts a run short.** As long as the clock shows at most `now`: calls of an interpreter
come to a result, whatever the children do, exactly if its profile is safe; and so does a run of a
document, in every state in which no session is running, exactly if the profiles that its blocks are
dispatched to are safe. The exceptions are answers, turns, ends and commands that never come, which
are waited for without end. -/
theorem isSafe_iff_returns (now : Nat) :
    (∀ (name : Text) (profile : Profile), profile.IsSafe name now ↔
      ∀ (ω σ : Type) (host : Host ω σ), (∀ world, host.clock world ≤ now) →
        ∀ first interpreter scene commands,
          Interpreter.Reaches host name profile first interpreter scene commands →
          (∀ body dir, (interpreter.execute host body dir).Returns scene (host.Hangs profile)) ∧
          (interpreter.stop host).Returns scene (host.Hangs profile)) ∧
    ∀ (options : RunOptions) (settings : Settings) (workspace document : Text),
      (∀ name profile, settings.Calls document name profile → profile.IsSafe name now) ↔
      ∀ (ω σ : Type) (host : Host ω σ), (∀ world, host.clock world ≤ now) →
        ∀ first runner scene,
          CodeRunner.Reaches host { options with noExec := false } settings workspace first runner
            scene →
          (∀ name interpreter, (name, interpreter) ∈ runner.interpreters.entries →
            interpreter.isReady = false) →
          (runner.run host document).Returns scene
            (runner.Hangs host (Segment.blocks (Segment.scan document))) := by
  refine ⟨fun name profile ↦ ⟨fun hsafe ω σ host hclock _ _ _ _ h ↦ h.returns hclock hsafe, ?_⟩,
    fun options settings workspace document ↦ ⟨?_, ?_⟩⟩
  · intro h
    obtain ⟨line, hline⟩ := Line.exists_marks profile
    have hreturns := h Unit (Option Unit) ((Responder.herald line).hostAt now)
      (fun _ ↦ Nat.le_refl now) { world := () } { name, profile } { world := () } [] .new
    exact Interpreter.isSafe_of_returns (hreturns.1 [] []) hline
  · intro hsafe ω σ host hclock first runner scene hreaches hidle
    exact hreaches.returns hclock rfl hidle hsafe
  · intro h name profile hcalls
    obtain ⟨line, hline⟩ := Line.exists_marks profile
    have hreturns := h Unit (Option Unit) ((Responder.herald line).hostAt now)
      (fun _ ↦ Nat.le_refl now) { world := () } _ { world := () } .new
      fun _ _ ↦ CodeRunner.isReady_of_mem_new
    exact CodeRunner.isSafe_of_returns hreturns hline hcalls

/-- What keeps the first run with one interpreter beside the built-in one from coming to a result,
though its child answers as it should. -/
def CodeRunner.haltOf? (name : Text) (profile : Profile) : Option Halt :=
  let runner : CodeRunner (Option Unit) :=
    .new {} { interpreters := ⟨[(name, profile)]⟩ } ['/']
  match ((runner.run (Greeter.responder []).host hello).outcome { world := () }).1 with
  | .ok _ => none
  | .error reason => some reason

/-- Two deadlines that lie too far ahead, and a name that no reader can have. -/
theorem CodeRunner.crashes_hello :
    haltOf? "repl".toList Greeter.profile = none ∧
      haltOf? "repl".toList { Greeter.profile with timeoutSecs := some 18446744073709551615 } =
        some .clockOverflow ∧
      haltOf? "repl".toList { Greeter.profile with shutdownTimeoutSecs := 18446744073709551615 } =
        some .clockOverflow ∧
      haltOf? "re\x00pl".toList { Greeter.profile with aliases := ["repl".toList] } =
        some .readerName := by
  decide +kernel

end Weave
