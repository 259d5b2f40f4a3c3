import Weave.Proofs.Overrun
import Weave.Proofs.Pairing
import Weave.Proofs.Rendering

/-!
# The use of sessions by a run

When a document has been run, every interpreter is stopped. Sessions are only started for blocks:
one for all blocks of an interpreter, and one more after every block that failed. Only something
that is waited for and never comes keeps a run from coming to a result.

## Main definitions

* `Weave.Interpreter.Used`: what calls do to an interpreter.
* `Weave.CodeRunner.Reaches`: the states of a runner between two calls.
* `Weave.CodeRunner.Timely`: no deadline that blocks may set is too far ahead.
* `Weave.CodeRunner.Hangs`: what a run may wait for without end.
* `Weave.Interpreter.Spent`: what a run does to an interpreter.

## Main results

* `Weave.Interpreter.Executes.used`: what one call does.
* `Weave.CodeRunner.Rendering.used`: what the blocks of a rendering do.
* `Weave.CodeRunner.Reaches.run_spent`: what a run does, in every state that is reached.
-/

namespace Weave

variable {ω σ : Type}

/-! ### Calls -/

namespace Interpreter

/-- The interpreter without a session. -/
def stopped (interpreter : Interpreter σ) : Interpreter σ := { interpreter with session := none }

/-- The number of sessions that are running. -/
def running (interpreter : Interpreter σ) : Nat := if interpreter.isReady then 1 else 0

/-- The number of calls that failed, by their results. -/
def failures (results : List (Except Error Text)) : Nat := results.countP fun
  | .ok _ => false
  | .error _ => true

/-- What calls with some results have done to an interpreter. Every session that has been started is
running, or was ended by a call that failed; without such a call one is running in the end. -/
structure Used (before : Interpreter σ) (results : List (Except Error Text))
    (after : Interpreter σ) : Prop where
  name : after.name = before.name
  profile : after.profile = before.profile
  kept : results = [] → after = before
  started : before.spawnCount ≤ after.spawnCount
  most : after.spawnCount + before.running ≤
    before.spawnCount + failures results + after.running
  least : before.spawnCount + after.running ≤ after.spawnCount + before.running
  isReady : results ≠ [] → failures results = 0 → after.isReady = true

namespace Used

variable {before mid after : Interpreter σ} {results more : List (Except Error Text)}

theorem refl (interpreter : Interpreter σ) : interpreter.Used [] interpreter where
  name := rfl
  profile := rfl
  kept _ := rfl
  started := Nat.le_refl _
  most := Nat.le_refl _
  least := Nat.le_refl _
  isReady h := absurd rfl h

theorem running_eq_one {interpreter : Interpreter σ} (h : interpreter.isReady = true) :
    interpreter.running = 1 := if_pos h

theorem running_le (interpreter : Interpreter σ) : interpreter.running ≤ 1 := by
  unfold running
  split <;> omega

/-- Calls after other calls. -/
theorem append (hfirst : before.Used results mid) (hrest : mid.Used more after) :
    before.Used (results ++ more) after := by
  have hcount : failures (results ++ more) = failures results + failures more :=
    List.countP_append
  have hmost := hfirst.most
  have hleast := hfirst.least
  refine ⟨hrest.name.trans hfirst.name, hrest.profile.trans hfirst.profile, fun hnil ↦ ?_,
    Nat.le_trans hfirst.started hrest.started, ?_, ?_, fun hresults hnone ↦ ?_⟩
  · obtain ⟨hresults, hmore⟩ := List.append_eq_nil_iff.mp hnil
    rw [hrest.kept hmore, hfirst.kept hresults]
  · have := hrest.most
    omega
  · have := hrest.least
    omega
  · -- The last call is among the later ones, unless there are none.
    by_cases hmore : more = []
    · rw [hrest.kept hmore]
      exact hfirst.isReady (by simpa [hmore] using hresults) (by omega)
    · exact hrest.isReady hmore (by omega)

/-- More sessions are started than one only if calls fail. -/
theorem spawnCount_le (h : before.Used results after) :
    after.spawnCount ≤ before.spawnCount + (1 - before.running) + failures results := by
  have := h.most
  have := running_le before
  have := running_le after
  omega

/-- If no call fails, one session is started if none was running. -/
theorem spawnCount_eq (h : before.Used results after) (hresults : results ≠ [])
    (hnone : failures results = 0) :
    after.spawnCount = before.spawnCount + (1 - before.running) := by
  have := h.most
  have := h.least
  have := running_eq_one (h.isReady hresults hnone)
  have := running_le before
  omega

end Used

variable {host : Host ω σ} {interpreter next : Interpreter σ} {body dir : Text}
  {result : Except Error Text} {w later : ω}

/-- **One call.** What running a block does to an interpreter. -/
theorem Executes.used (h : Executes host interpreter body dir w (.ok (result, next)) later) :
    interpreter.Used [result] next := by
  obtain ⟨name, profile, session, count⟩ := interpreter
  cases result with
  | ok answer =>
    obtain ⟨last, rfl⟩ := h.eq_of_ok
    cases session <;>
      exact ⟨rfl, rfl, by simp, by simp, by simp [running, isReady, failures],
        by simp [running, isReady], fun _ _ ↦ rfl⟩
  | error e =>
    -- At most one session has been started, and none is left.
    rcases h.eq_of_error with ⟨rfl, -⟩ | rfl <;>
    · cases session <;>
        exact ⟨rfl, rfl, by simp, by simp, by simp [running, isReady, failures],
          by simp [running, isReady], by simp [failures]⟩

variable (host) in
/-- Stopping takes the session, unless one is running whose deadline is too far ahead or whose child
never ends. -/
theorem stop_ensures (hsound : interpreter.Sound) :
    Task.Ensures (fun _ ↦ True) (interpreter.stop host) (fun next _ ↦ next = interpreter.stopped)
      (fun reason scene ↦ interpreter.isReady = true ∧
        (host.Hangs interpreter.profile scene.world reason ∨
          host.Overruns interpreter.name interpreter.profile)) := by
  intro scene _
  rcases hrun : (interpreter.stop host).outcome scene with ⟨result, later⟩
  have hstops := (interpreter.stop_exits host).of_outcome hrun
  cases result with
  | ok next => exact hstops.eq
  | error reason =>
    refine ⟨?_, hstops.halt hsound⟩
    cases hstops with
    | halted hsession _ => rw [isReady, hsession]; rfl

end Interpreter

/-! ### Runners -/

/-- A value in a registry after a replacement is the new one, or stands under another name. -/
theorem Registry.mem_replace {α : Type} {r : Registry α} {name other : Text} {value new : α}
    (h : (name, value) ∈ (r.replace other new).entries) :
    (name = other ∧ value = new) ∨ (name, value) ∈ r.entries := by
  obtain ⟨⟨n, v⟩, hmem, heq⟩ := List.mem_map.mp h
  obtain ⟨rfl, rfl⟩ := Prod.mk.inj heq
  split
  · exact .inl ⟨‹_›, rfl⟩
  · exact .inr hmem

namespace CodeRunner

/-- The states between two calls of a runner that is new in the scene `first`, with the scene that
the calls so far have left. -/
inductive Reaches (host : Host ω σ) (options : RunOptions) (settings : Settings) (workspace : Text)
    (first : Scene ω) : CodeRunner σ → Scene ω → Prop
  | new : Reaches host options settings workspace first (.new options settings workspace) first
  | renderBlock {runner next : CodeRunner σ} {scene later : Scene ω} {shown : Text}
      (block : CodeBlock) (h : Reaches host options settings workspace first runner scene)
      (hrun : (runner.renderBlock host block).outcome scene = (.ok (shown, next), later)) :
      Reaches host options settings workspace first next later
  | run {runner next : CodeRunner σ} {scene later : Scene ω} {out : Text} (document : Text)
      (h : Reaches host options settings workspace first runner scene)
      (hrun : (runner.run host document).outcome scene = (.ok (out, next), later)) :
      Reaches host options settings workspace first next later
  | stopSessions {runner next : CodeRunner σ} {scene later : Scene ω}
      (h : Reaches host options settings workspace first runner scene)
      (hrun : (runner.stopSessions host).outcome scene = (.ok next, later)) :
      Reaches host options settings workspace first next later

/-- Blocks are run, every interpreter knows the name that it stands under, and the marker of one
that is ready is part of a line. -/
structure Sound (runner : CodeRunner σ) : Prop where
  enabled : runner.noExec = false
  name : ∀ name interpreter, (name, interpreter) ∈ runner.interpreters.entries →
    interpreter.name = name
  sound : ∀ name interpreter, (name, interpreter) ∈ runner.interpreters.entries →
    interpreter.Sound

/-- A run of some blocks concerns the interpreters that are ready and those that the blocks are
dispatched to. -/
inductive Concerns (runner : CodeRunner σ) (blocks : List CodeBlock) (name : Text)
    (profile : Profile) : Prop
  | ready {interpreter : Interpreter σ}
      (hmem : (name, interpreter) ∈ runner.interpreters.entries)
      (hprofile : interpreter.profile = profile) (hready : interpreter.isReady = true) :
      Concerns runner blocks name profile
  | called {interpreter : Interpreter σ} {block : CodeBlock}
      (hget : runner.interpreters.get? name = some interpreter)
      (hprofile : interpreter.profile = profile) (hblock : block ∈ blocks)
      (hlanguage : runner.language block.language = .interpreter name) :
      Concerns runner blocks name profile

theorem Concerns.mono {runner : CodeRunner σ} {blocks more : List CodeBlock} {name : Text}
    {profile : Profile} (h : runner.Concerns blocks name profile) (hblocks : blocks ⊆ more) :
    runner.Concerns more name profile := by
  cases h with
  | ready hmem hprofile hready => exact .ready hmem hprofile hready
  | called hget hprofile hblock hlanguage => exact .called hget hprofile (hblocks hblock) hlanguage

/-- Up to the moment `now`, every interpreter that a run of some blocks concerns has a safe
profile. -/
def Timely (runner : CodeRunner σ) (now : Nat) (blocks : List CodeBlock) : Prop :=
  ∀ name profile, runner.Concerns blocks name profile → profile.IsSafe name now

/-- A run of some blocks waits without end in a world: for an interpreter that it concerns, or for
the command that a block gives to the shell. -/
inductive Hangs (host : Host ω σ) (runner : CodeRunner σ) (blocks : List CodeBlock) (world : ω) :
    Halt → Prop
  | interpreter {name : Text} {profile : Profile} {reason : Halt}
      (hconcerns : runner.Concerns blocks name profile) (h : host.Hangs profile world reason) :
      Hangs host runner blocks world reason
  | command {block : CodeBlock} {before : ω} (hmem : block ∈ blocks)
      (hshell : runner.language block.language = .shell)
      (hne : ShellCommand.join block.body ≠ [])
      (h : host.runCommand before runner.shell.program
        (runner.shell.args ++ [ShellCommand.join block.body])
        (runner.workingDir block.fenceOptions) = (none, world)) :
      Hangs host runner blocks world .endlessCommand

variable {host : Host ω σ} {runner next last : CodeRunner σ} {block : CodeBlock} {dir : Text}
  {blocks : List CodeBlock} {scene later : Scene ω} {result : Except Error Text}
  {steps : List (Step ω)} {now : Nat}

/-- A block leaves the runner sound. -/
theorem dispatch_sound (hsound : runner.Sound)
    (h : (runner.dispatch host block dir).outcome scene = (.ok (result, next), later)) :
    next.Sound := by
  obtain ⟨called, interpreter, after, hlanguage, hget, hrun, rfl⟩ | ⟨-, rfl, -⟩ | ⟨rfl, -⟩ :=
    dispatch_cases h
  · have hmem := Registry.mem_of_get? hget
    have hexecutes := (interpreter.execute_exits host _ _).of_outcome hrun
    refine ⟨hsound.enabled, fun name other hother ↦ ?_, fun name other hother ↦ ?_⟩
    · rcases Registry.mem_replace hother with ⟨rfl, rfl⟩ | hother
      · exact hexecutes.keeps.1.trans (hsound.name _ _ hmem)
      · exact hsound.name _ _ hother
    · rcases Registry.mem_replace hother with ⟨rfl, rfl⟩ | hother
      · exact hexecutes.sound (hsound.sound _ _ hmem)
      · exact hsound.sound _ _ hother
  · exact hsound
  · exact hsound

/-- What one block does to the interpreters: the one that it is dispatched to is used. -/
theorem dispatch_used
    (h : (runner.dispatch host block dir).outcome scene = (.ok (result, next), later))
    (name : Text) (start : Scene ω) (done : Scene ω) :
    Option.Rel
      (fun before after ↦ before.Used (runner.calls name [⟨block, result, start, done⟩]) after)
      (runner.interpreters.get? name) (next.interpreters.get? name) := by
  by_cases hlanguage : runner.language block.language = .interpreter name
  · rw [calls, own_cons_of_eq hlanguage]
    cases hget : runner.interpreters.get? name with
    | none => rw [dispatch_none h hget]; exact .none
    | some interpreter =>
      obtain ⟨after, hrun, hafter⟩ := dispatch_own h hlanguage hget
      rw [hafter]
      exact .some ((interpreter.execute_exits host _ _).of_outcome hrun).used
  · rw [calls, own_cons_of_ne hlanguage, dispatch_other h hlanguage]
    cases runner.interpreters.get? name with
    | none => exact .none
    | some interpreter => exact .some (.refl interpreter)

/-- What concerns an interpreter when a block has been run concerned it before. -/
theorem dispatch_concerns {name : Text} {profile : Profile}
    (h : (runner.dispatch host block dir).outcome scene = (.ok (result, next), later))
    (hconcerns : next.Concerns blocks name profile) :
    runner.Concerns (block :: blocks) name profile := by
  obtain ⟨called, before, after, hlanguage, hget, hrun, rfl⟩ | ⟨-, rfl, -⟩ | ⟨rfl, -⟩ :=
    dispatch_cases h
  · have hprofile := ((before.execute_exits host _ _).of_outcome hrun).keeps.2
    cases hconcerns with
    | ready hmem hafter hready =>
      rcases Registry.mem_replace hmem with ⟨rfl, rfl⟩ | hmem
      · exact .called hget (hprofile.symm.trans hafter) List.mem_cons_self hlanguage
      · exact .ready hmem hafter hready
    | called hother hafter hblock hcalled =>
      by_cases hname : name = called
      · subst hname
        cases (Registry.get?_replace_self after hget).symm.trans hother
        exact .called hget (hprofile.symm.trans hafter) List.mem_cons_self hlanguage
      · rw [Registry.get?_replace_of_ne hname] at hother
        exact .called hother hafter (List.mem_cons_of_mem _ hblock) hcalled
  · exact hconcerns.mono (List.subset_cons_self block blocks)
  · exact hconcerns.mono (List.subset_cons_self block blocks)

theorem Rendering.concerns {name : Text} {profile : Profile}
    (h : Rendering host runner scene steps last later)
    (hconcerns : last.Concerns blocks name profile) :
    runner.Concerns (steps.map Step.block ++ blocks) name profile := by
  induction h with
  | nil => exact hconcerns
  | cons hrun _ ih => exact dispatch_concerns hrun (ih hconcerns)

theorem Rendering.sound (h : Rendering host runner scene steps last later) (hsound : runner.Sound) :
    last.Sound := by
  induction h with
  | nil => exact hsound
  | cons hrun _ ih => exact ih (dispatch_sound hsound hrun)

/-- **Renderings.** The blocks of a rendering use the interpreters that they are dispatched to. -/
theorem Rendering.used (h : Rendering host runner scene steps last later) (name : Text) :
    Option.Rel (fun before after ↦ before.Used (runner.calls name steps) after)
      (runner.interpreters.get? name) (last.interpreters.get? name) := by
  induction h with
  | nil runner scene =>
    cases runner.interpreters.get? name with
    | none => exact .none
    | some interpreter => exact .some (.refl interpreter)
  | @cons runner next last scene mid later block result steps hrun hrest ih =>
    have hfirst := dispatch_used hrun name scene (mid.logged (reports block result))
    have hothers := ih
    rw [calls_eq (CodeRunner.language_eq (dispatch_keeps hrun).2.2.2)] at hothers
    rw [calls_cons]
    generalize runner.interpreters.get? name = before at hfirst
    generalize next.interpreters.get? name = between at hfirst hothers
    generalize last.interpreters.get? name = after at hothers
    cases hfirst with
    | none =>
      cases hothers
      exact .none
    | some hfirst =>
      cases hothers with
      | some hothers => exact .some (hfirst.append hothers)

/-! ### Runs -/

/-- The runner with every interpreter stopped. -/
def stopped (runner : CodeRunner σ) : CodeRunner σ :=
  { runner with interpreters := runner.interpreters.map fun _ ↦ Interpreter.stopped }

@[simp] theorem get?_stopped (runner : CodeRunner σ) (name : Text) :
    runner.stopped.interpreters.get? name =
      (runner.interpreters.get? name).map Interpreter.stopped :=
  Registry.get?_map_values _ (fun _ ↦ Interpreter.stopped) name

theorem mem_stopped {interpreter : Interpreter σ} {name : Text}
    (h : (name, interpreter) ∈ runner.stopped.interpreters.entries) :
    ∃ before, (name, before) ∈ runner.interpreters.entries ∧ interpreter = before.stopped := by
  obtain ⟨⟨n, before⟩, hmem, heq⟩ := List.mem_map.mp h
  obtain ⟨rfl, rfl⟩ := Prod.mk.inj heq
  exact ⟨before, hmem, rfl⟩

theorem isReady_of_mem_stopped {interpreter : Interpreter σ} {name : Text}
    (h : (name, interpreter) ∈ runner.stopped.interpreters.entries) :
    interpreter.isReady = false := by
  obtain ⟨before, -, rfl⟩ := mem_stopped h
  rfl

theorem Sound.stopped (h : runner.Sound) : runner.stopped.Sound where
  enabled := h.enabled
  name name interpreter hmem := by
    obtain ⟨before, hbefore, rfl⟩ := mem_stopped hmem
    exact h.name name before hbefore
  sound name interpreter hmem := by
    obtain ⟨before, -, rfl⟩ := mem_stopped hmem
    exact Interpreter.sound_of_none rfl

/-- Stopping the interpreters of a list takes their sessions if stopping each of them does. -/
theorem stopEach_of_forall {entries : List (Text × Interpreter σ)}
    {halted : Halt → Scene ω → Prop}
    (h : ∀ name interpreter, (name, interpreter) ∈ entries →
      Task.Ensures (fun _ ↦ True) (interpreter.stop host) (fun next _ ↦ next = interpreter.stopped)
        halted) :
    Task.Ensures (fun _ ↦ True) (stopEach host entries)
      (fun stopped _ ↦ stopped = entries.map fun (name, interpreter) ↦ (name, interpreter.stopped))
      halted := by
  induction entries with
  | nil => exact .pure fun _ _ ↦ rfl
  | cons entry entries ih =>
    obtain ⟨name, interpreter⟩ := entry
    refine (h name interpreter List.mem_cons_self).bindResult fun next hnext ↦ ?_
    refine (ih fun n i hmem ↦ h n i (List.mem_cons_of_mem _ hmem)).bindResult fun rest hrest ↦ ?_
    exact .pure fun _ _ ↦ by rw [hnext, hrest]; rfl

variable (host) in
/-- Only an interpreter that is ready keeps a runner from being stopped. -/
theorem stopSessions_ensures (hsound : runner.Sound) :
    Task.Ensures (fun _ ↦ True) (runner.stopSessions host) (fun next _ ↦ next = runner.stopped)
      (fun reason scene ↦ ∃ name interpreter, (name, interpreter) ∈ runner.interpreters.entries ∧
        interpreter.isReady = true ∧ (host.Hangs interpreter.profile scene.world reason ∨
          host.Overruns name interpreter.profile)) := by
  refine (stopEach_of_forall fun name interpreter hmem ↦ ?_).bindResult fun entries hentries ↦
    .pure fun _ _ ↦ by rw [hentries]; rfl
  refine (interpreter.stop_ensures host (hsound.sound name interpreter hmem)).weaken
    (fun _ h ↦ h) (fun _ _ h ↦ h) fun reason scene h ↦ ⟨name, interpreter, hmem, ?_⟩
  rwa [hsound.name name interpreter hmem] at h

/-- A block that does not come to a result has been cut short, or is waited for without end. -/
theorem dispatch_overruns {reason : Halt} (hsound : runner.Sound)
    (h : (runner.dispatch host block (runner.workingDir block.fenceOptions)).outcome scene =
      (.error reason, later)) :
    runner.Hangs host [block] later.world reason ∨
      ∃ name profile, runner.Concerns [block] name profile ∧ host.Overruns name profile := by
  rcases dispatch_halt h with ⟨name, interpreter, hlanguage, hget, hrun⟩ | ⟨hshell, hrun⟩
  · have hmem := Registry.mem_of_get? hget
    have hconcerns : runner.Concerns [block] name interpreter.profile :=
      .called hget rfl List.mem_cons_self hlanguage
    rcases ((interpreter.execute_exits host _ _).of_outcome hrun).halt
      (hsound.sound name interpreter hmem) with hhangs | hover
    · exact .inl (.interpreter hconcerns hhangs)
    · exact .inr ⟨name, _, hconcerns, hsound.name name interpreter hmem ▸ hover⟩
  · cases (ShellCommand.execute_exits host _ _ _).of_outcome hrun with
    | endless hne _ hran => exact .inl (.command List.mem_cons_self hshell hne hran)

/-- What the last blocks wait for without end, all blocks do. -/
theorem Rendering.hangs {reason : Halt} {world : ω}
    (h : Rendering host runner scene steps last later)
    (hhangs : last.Hangs host blocks world reason) :
    runner.Hangs host (steps.map Step.block ++ blocks) world reason := by
  cases hhangs with
  | interpreter hconcerns hhangs => exact .interpreter (h.concerns hconcerns) hhangs
  | command hmem hshell hne hran =>
    obtain ⟨hworkspace, hcommand⟩ := h.keeps
    rw [h.language_eq] at hshell
    rw [hcommand, workingDir, hworkspace] at hran
    exact .command (List.mem_append_right _ hmem) hshell hne hran

theorem Hangs.mono {reason : Halt} {world : ω} {more : List CodeBlock}
    (h : runner.Hangs host blocks world reason) (hblocks : blocks ⊆ more) :
    runner.Hangs host more world reason := by
  cases h with
  | interpreter hconcerns hhangs => exact .interpreter (hconcerns.mono hblocks) hhangs
  | command hmem hshell hne hran => exact .command (hblocks hmem) hshell hne hran

variable (host) in
/-- A run is a rendering of the blocks of the document, after which the runner is stopped. It only
does not come to a result if it is cut short or waits without end. -/
theorem run_ensures (hsound : runner.Sound) (document : Text) (scene : Scene ω) :
    Task.Ensures (· = scene) (runner.run host document)
      (fun (_, next) _ ↦ ∃ steps last between, Rendering host runner scene steps last between ∧
        steps.map Step.block = Segment.blocks (Segment.scan document) ∧ next = last.stopped)
      (fun reason later ↦
        runner.Hangs host (Segment.blocks (Segment.scan document)) later.world reason ∨
        ∃ name profile, runner.Concerns (Segment.blocks (Segment.scan document)) name profile ∧
          host.Overruns name profile) := by
  refine ((renderSegments_ensures hsound.enabled (Segment.scan document) scene).weaken
    (fun _ h ↦ h) (fun _ _ h ↦ h) ?_).bind fun (out, last) ↦ ?_
  · rintro reason later ⟨steps, block, rest, mid, between, hsteps, hblocks, hhalt⟩
    have hsub : steps.map Step.block ++ [block] ⊆ steps.map Step.block ++ block :: rest :=
      ((List.singleton_sublist.mpr List.mem_cons_self).append_left _).subset
    rw [hblocks]
    rcases dispatch_overruns (hsteps.sound hsound) hhalt with
      hhangs | ⟨name, profile, hconcerns, hover⟩
    · exact .inl ((hsteps.hangs hhangs).mono hsub)
    · exact .inr ⟨name, profile, (hsteps.concerns hconcerns).mono hsub, hover⟩
  · rintro between ⟨steps, hsteps, hblocks, -⟩
    have hall {name : Text} {interpreter : Interpreter σ}
        (hmem : (name, interpreter) ∈ last.interpreters.entries)
        (hready : interpreter.isReady = true) :
        runner.Concerns (Segment.blocks (Segment.scan document)) name interpreter.profile := by
      have hlast : last.Concerns [] name interpreter.profile := .ready hmem rfl hready
      have hconcerns := hsteps.concerns hlast
      rwa [List.append_nil, hblocks] at hconcerns
    refine ((stopSessions_ensures host (hsteps.sound hsound)).weaken (fun _ h ↦ h)
      (fun _ _ h ↦ h) ?_).bind (fun next ↦ .pure ?_)
        (between.logged (Segment.warnings document)) trivial
    · rintro reason later ⟨name, interpreter, hmem, hready, hhangs | hover⟩
      · exact .inl (.interpreter (hall hmem hready) hhangs)
      · exact .inr ⟨name, _, hall hmem hready, hover⟩
    · rintro later rfl
      exact ⟨steps, last, between, hsteps, hblocks, rfl⟩

/-- In a state that is reached, the runner is sound. -/
theorem Reaches.sound {options : RunOptions} {settings : Settings} {workspace : Text}
    {first : Scene ω} (henabled : options.noExec = false)
    (h : Reaches host options settings workspace first runner scene) : runner.Sound := by
  induction h with
  | new =>
    refine ⟨henabled, fun name interpreter hmem ↦ ?_, fun name interpreter hmem ↦ ?_⟩ <;>
      obtain ⟨⟨n, profile⟩, -, heq⟩ := List.mem_map.mp hmem <;>
      obtain ⟨rfl, rfl⟩ := Prod.mk.inj heq
    · rfl
    · exact Interpreter.sound_of_none rfl
  | renderBlock block _ hrun ih =>
    obtain ⟨result, hstep⟩ := renderBlock_rendering ih.enabled hrun
    exact hstep.sound ih
  | run document _ hrun ih =>
    obtain ⟨steps, last, between, hsteps, -, rfl⟩ :=
      (run_ensures host ih document _).result rfl hrun
    exact (hsteps.sound ih).stopped
  | stopSessions _ hrun ih =>
    obtain rfl := (stopSessions_ensures host ih).result trivial hrun
    exact ih.stopped

end CodeRunner

/-- What a run does to an interpreter that answered blocks with some results: it stops it, and has
started one session for all blocks, or none if one was running, and at most one more for every block
that failed. -/
structure Interpreter.Spent (before : Interpreter σ) (results : List (Except Error Text))
    (after : Interpreter σ) : Prop where
  isReady : after.isReady = false
  kept : results = [] → after.spawnCount = before.spawnCount
  started : before.spawnCount ≤ after.spawnCount
  most : after.spawnCount ≤
    before.spawnCount + (if before.isReady then 0 else 1) + failures results
  exact : before.isReady = false → results ≠ [] → failures results = 0 →
    after.spawnCount = before.spawnCount + 1

theorem Interpreter.Used.spent {before after : Interpreter σ} {results : List (Except Error Text)}
    (h : before.Used results after) : before.Spent results after.stopped where
  isReady := rfl
  kept hresults := by rw [h.kept hresults, stopped]
  started := h.started
  most := by
    have hmost := h.spawnCount_le
    unfold running at hmost
    change after.spawnCount ≤ _
    split <;> simp_all
  exact hready hresults hnone := by
    have hcount := h.spawnCount_eq hresults hnone
    rwa [running, hready] at hcount

namespace CodeRunner

variable {host : Host ω σ} {options : RunOptions} {settings : Settings} {workspace : Text}
  {first scene : Scene ω} {runner : CodeRunner σ}

/-- **Sessions of a run.** In every state that is reached by a runner that runs blocks, whatever the
processes do: a run comes to a result, unless it waits without end. Then every interpreter is
stopped. One to which no block was dispatched has started no session; the others have started one
for all their blocks, or none if one was running, and at most one more for every block that
failed. -/
theorem Reaches.run_spent {now : Nat} (hclock : ∀ world, host.clock world ≤ now)
    (henabled : options.noExec = false)
    (h : Reaches host options settings workspace first runner scene) (document : Text)
    (htimely : runner.Timely now (Segment.blocks (Segment.scan document))) :
    match (runner.run host document).outcome scene with
    | (.ok (_, next), _) =>
      (∀ name interpreter, (name, interpreter) ∈ next.interpreters.entries →
        interpreter.isReady = false) ∧
      ∃ steps last between, Rendering host runner scene steps last between ∧
        steps.map Step.block = Segment.blocks (Segment.scan document) ∧
        ∀ name, Option.Rel (fun before after ↦ before.Spent (runner.calls name steps) after)
          (runner.interpreters.get? name) (next.interpreters.get? name)
    | (.error reason, later) =>
      runner.Hangs host (Segment.blocks (Segment.scan document)) later.world reason := by
  have hensures := run_ensures host (h.sound henabled) document scene
  rcases hrun : (runner.run host document).outcome scene with ⟨result, later⟩
  cases result with
  | ok answered =>
    obtain ⟨steps, last, between, hsteps, hblocks, hnext⟩ := hensures.result rfl hrun
    obtain ⟨out, next⟩ := answered
    obtain rfl : next = last.stopped := hnext
    refine ⟨fun _ _ ↦ isReady_of_mem_stopped, steps, last, between, hsteps, hblocks, fun name ↦ ?_⟩
    have hused := hsteps.used name
    rw [get?_stopped]
    generalize runner.interpreters.get? name = before at hused ⊢
    generalize last.interpreters.get? name = after at hused ⊢
    cases hused with
    | none => exact .none
    | some hused => exact .some hused.spent
  | error reason =>
    refine (hensures.halt rfl hrun).resolve_right ?_
    rintro ⟨name, profile, hconcerns, hover⟩
    exact hover now hclock (htimely name profile hconcerns)

/-! ### A run of one block -/

/-- A document with one block, which greets. -/
def hello : Text := "```repl exec\necho hello\n```\n".toList

/-- What keeps the first run of such a runner from coming to a result. -/
def halt? (host : Host Unit σ) (profile : Profile) : Option Halt :=
  match (((single profile : CodeRunner σ).run host hello).outcome { world := () }).1 with
  | .ok _ => none
  | .error reason => some reason

theorem exists_run_of_halt? {host : Host Unit σ} {profile : Profile}
    (h : halt? host profile = none) : ∃ out next later,
      ((single profile : CodeRunner σ).run host hello).outcome { world := () } =
        (.ok (out, next), later) := by
  unfold halt? at h
  rcases hrun : ((single profile : CodeRunner σ).run host hello).outcome { world := () } with
    ⟨result, later⟩
  rw [hrun] at h
  cases result with
  | error reason => cases h
  | ok answered => exact ⟨_, _, _, rfl⟩

theorem timely_single : (single Greeter.profile : CodeRunner (Option Unit)).Timely 0
    (Segment.blocks (Segment.scan hello)) := by
  have hbuiltin : Profile.builtin.IsSafe Profile.builtinName 0 :=
    ⟨by decide, by decide, nofun, by decide⟩
  have hentries : (single Greeter.profile : CodeRunner (Option Unit)).interpreters.entries =
      [(Profile.builtinName, { name := Profile.builtinName, profile := .builtin }),
        ("repl".toList, { name := "repl".toList, profile := Greeter.profile })] := rfl
  have hmem {name : Text} {interpreter : Interpreter (Option Unit)}
      (h : (name, interpreter) ∈ (single Greeter.profile).interpreters.entries) :
      interpreter.profile.IsSafe name 0 := by
    rw [hentries] at h
    cases h with
    | head => exact hbuiltin
    | tail _ h =>
      cases List.mem_singleton.mp h
      exact Greeter.isSafe
  rintro name _ (⟨h, rfl, -⟩ | ⟨hget, rfl, -, -⟩)
  · exact hmem h
  · exact hmem (Registry.mem_of_get? hget)

/-- A greeting comes to a result, and its interpreter is stopped. -/
theorem run_hello : halt? (Greeter.responder []).host Greeter.profile = none ∧
    ∃ out next later results interpreter,
      ((single Greeter.profile).run (Greeter.responder []).host hello).outcome { world := () } =
        (.ok (out, next), later) ∧
      next.interpreters.get? "repl".toList = some interpreter ∧
      ({ name := "repl".toList, profile := Greeter.profile } : Interpreter (Option Unit)).Spent
        results interpreter := by
  have hhalt : halt? (Greeter.responder []).host Greeter.profile = none := by decide +kernel
  have hreaches : Reaches (Greeter.responder []).host {}
      { interpreters := ⟨[("repl".toList, Greeter.profile)]⟩ } ['/'] { world := () }
      (single Greeter.profile) { world := () } := .new
  have hspent := hreaches.run_spent (fun _ ↦ Nat.le_refl 0) rfl hello timely_single
  obtain ⟨out, next, later, hrun⟩ := exists_run_of_halt? hhalt
  rw [hrun] at hspent
  obtain ⟨-, steps, -, -, -, -, hnext⟩ := hspent
  have hrepl := hnext "repl".toList
  have hget : (single Greeter.profile : CodeRunner (Option Unit)).interpreters.get?
      "repl".toList = some { name := "repl".toList, profile := Greeter.profile } := rfl
  rw [hget] at hrepl
  cases hafter : next.interpreters.get? "repl".toList with
  | none => rw [hafter] at hrepl; cases hrepl
  | some interpreter =>
    rw [hafter] at hrepl
    cases hrepl with
    | some hspent => exact ⟨hhalt, out, next, later, _, interpreter, hrun, hafter, hspent⟩

/-- A child that prints nothing. -/
def mute : Responder Unit where
  banner := []
  initial := ()
  reply _ _ := .lines [] ()

/-- A child that prints nothing is waited for without end, and a deadline can be too far ahead. -/
theorem halts_hello :
    halt? mute.host Greeter.profile = some .endlessWait ∧
    halt? mute.host .patient = some .clockOverflow := by
  decide +kernel

end CodeRunner

end Weave
