import Weave.Proofs.Ensures
import Weave.Run.CodeRunner

/-!
# Renderings

A document is rendered block by block. This file takes a rendering apart into its steps, one for
each block, and says what a step does: it runs the block in the shell or in one interpreter, or it
does nothing, and leaves the other interpreters as they are.

## Main definitions

* `Weave.CodeRunner.Step`: a block that has been run, and what it came to.
* `Weave.CodeRunner.Rendering`: blocks that are run one after the other.
* `Weave.CodeRunner.requests`: the bodies and directories of the blocks of an interpreter.

## Main results

* `Weave.CodeRunner.dispatch_cases`, `Weave.CodeRunner.dispatch_halt`: what running a block does.
* `Weave.CodeRunner.renderSegments_ensures`: rendering segments is a rendering of their blocks.
-/

namespace Weave

variable {ω σ α : Type}

/-! ### Scenes and registries -/

/-- The scene with more events in its log. -/
def Scene.logged (scene : Scene ω) (events : List Event) : Scene ω :=
  { scene with log := scene.log ++ events }

@[simp] theorem Scene.world_logged (scene : Scene ω) (events : List Event) :
    (scene.logged events).world = scene.world := rfl

@[simp] theorem Scene.logged_nil (scene : Scene ω) : scene.logged [] = scene := by
  simp [Scene.logged]

@[simp] theorem Task.outcome_emitAll (events : List Event) (scene : Scene ω) :
    (emitAll events : Task ω Unit).outcome scene = (.ok (), scene.logged events) := rfl

namespace Registry

/-- Looking up a name after the values have been changed, each by its name. -/
theorem get?_map_values {β : Type} (entries : List (Text × α)) (f : Text → α → β) (name : Text) :
    (⟨entries.map fun (n, v) ↦ (n, f n v)⟩ : Registry β).get? name =
      ((⟨entries⟩ : Registry α).get? name).map (f name) := by
  unfold get?
  induction entries with
  | nil => rfl
  | cons entry entries ih =>
    obtain ⟨n, v⟩ := entry
    simp only [List.map_cons, List.lookup_cons]
    by_cases hn : name = n
    · simp [hn]
    · have hbeq : (name == n) = false := by simpa using hn
      simpa only [hbeq] using ih

/-- A value that has been replaced is found. -/
theorem get?_replace_self {r : Registry α} {name : Text} {value : α} (new : α)
    (h : r.get? name = some value) : (r.replace name new).get? name = some new := by
  obtain ⟨entries⟩ := r
  have hmap := get?_map_values entries (fun n v ↦ if n = name then new else v) name
  rw [h] at hmap
  simpa [replace] using hmap

/-- The values under other names remain. -/
theorem get?_replace_of_ne {r : Registry α} {name other : Text} (h : name ≠ other) (new : α) :
    (r.replace other new).get? name = r.get? name := by
  obtain ⟨entries⟩ := r
  have hmap := get?_map_values entries (fun n v ↦ if n = other then new else v) name
  simpa [replace, h] using hmap

theorem mem_of_get? {r : Registry α} {name : Text} {value : α} (h : r.get? name = some value) :
    (name, value) ∈ r.entries := by
  obtain ⟨entries⟩ := r
  unfold get? at h
  induction entries with
  | nil => cases h
  | cons entry entries ih =>
    obtain ⟨n, v⟩ := entry
    rw [List.lookup_cons] at h
    by_cases hn : name = n
    · have hv : v = value := by simpa [hn] using h
      rw [hn, hv]
      exact List.mem_cons_self
    · have hbeq : (name == n) = false := by simpa using hn
      rw [hbeq] at h
      exact List.mem_cons_of_mem _ (ih h)

end Registry

/-! ### Blocks -/

/-- The executable blocks among some segments, in order. -/
def Segment.blocks : List Segment → List CodeBlock
  | [] => []
  | .literal _ :: rest => blocks rest
  | .code block :: rest => block :: blocks rest

@[simp] theorem Segment.blocks_map_code (blocks : List CodeBlock) :
    Segment.blocks (blocks.map .code) = blocks := by
  induction blocks with
  | nil => rfl
  | cons block blocks ih => rw [List.map_cons, Segment.blocks, ih]

/-- The segments with every block replaced by a text. -/
def Segment.fill : List Segment → List Text → Text
  | [], _ => []
  | .literal text :: rest, shown => text ++ fill rest shown
  | .code _ :: _, [] => []
  | .code _ :: rest, first :: shown => first ++ fill rest shown

namespace CodeRunner

/-- What is logged about the result of a block. -/
def reports (block : CodeBlock) : Except Error Text → List Event
  | .ok _ => []
  | .error e => [⟨.error, "code block failed".toList,
      [("language", block.language), ("error", e.message)]⟩]

/-- The text that stands for the result of a block. -/
def resultText : Except Error Text → Text
  | .ok output => output
  | .error e => "ERROR: ".toList ++ e.message

/-- A block that has been run, what it came to, and the scenes before and after it. -/
structure Step (ω : Type) where
  block : CodeBlock
  result : Except Error Text
  before : Scene ω
  after : Scene ω

/-- The block as it is shown with its result. -/
def Step.shown (step : Step ω) : Text :=
  shownSource step.block.fenceOptions step.block ++
    shownResult step.block.fenceOptions (resultText step.result)

/-- A runner that starts in a scene has run blocks one after the other, which leaves a runner and a
scene. -/
inductive Rendering (host : Host ω σ) :
    CodeRunner σ → Scene ω → List (Step ω) → CodeRunner σ → Scene ω → Prop
  | nil (runner : CodeRunner σ) (scene : Scene ω) : Rendering host runner scene [] runner scene
  | cons {runner next last : CodeRunner σ} {scene mid later : Scene ω} {block : CodeBlock}
      {result : Except Error Text} {steps : List (Step ω)}
      (hrun : (runner.dispatch host block (runner.workingDir block.fenceOptions)).outcome
        (scene.logged (FenceOptions.warnings block.options)) = (.ok (result, next), mid))
      (hrest : Rendering host next (mid.logged (reports block result)) steps last later) :
      Rendering host runner scene
        (⟨block, result, scene, mid.logged (reports block result)⟩ :: steps) last later

/-- The steps whose blocks are dispatched to an interpreter. -/
def own (runner : CodeRunner σ) (name : Text) (steps : List (Step ω)) : List (Step ω) :=
  steps.filter fun step ↦ runner.language step.block.language = .interpreter name

@[simp] theorem own_cons_of_eq {runner : CodeRunner σ} {name : Text} {step : Step ω}
    (h : runner.language step.block.language = .interpreter name) (steps : List (Step ω)) :
    runner.own name (step :: steps) = step :: runner.own name steps :=
  List.filter_cons_of_pos (by simpa using h)

@[simp] theorem own_cons_of_ne {runner : CodeRunner σ} {name : Text} {step : Step ω}
    (h : runner.language step.block.language ≠ .interpreter name) (steps : List (Step ω)) :
    runner.own name (step :: steps) = runner.own name steps :=
  List.filter_cons_of_neg (by simpa using h)

/-- The results of the blocks that are dispatched to an interpreter. -/
def calls (runner : CodeRunner σ) (name : Text) (steps : List (Step ω)) :
    List (Except Error Text) :=
  (runner.own name steps).map Step.result

theorem own_eq {runner next : CodeRunner σ} (h : next.language = runner.language) :
    (next.own : Text → List (Step ω) → List (Step ω)) = runner.own := by
  unfold own
  rw [h]

theorem calls_eq {runner next : CodeRunner σ} (h : next.language = runner.language) (name : Text)
    (steps : List (Step ω)) : next.calls name steps = runner.calls name steps := by
  rw [calls, calls, own_eq h]

theorem calls_cons (runner : CodeRunner σ) (name : Text) (step : Step ω) (steps : List (Step ω)) :
    runner.calls name (step :: steps) = runner.calls name [step] ++ runner.calls name steps := by
  rw [calls, calls, calls, ← List.map_append, own, own, own, ← List.filter_append,
    List.singleton_append]

/-- The bodies of the blocks that are dispatched to an interpreter, with their directories. -/
def requests (runner : CodeRunner σ) (name : Text) (blocks : List CodeBlock) : List (Text × Text) :=
  (blocks.filter fun block ↦ runner.language block.language = .interpreter name).map
    fun block ↦ (block.body, runner.workingDir block.fenceOptions)

@[simp] theorem requests_cons_of_eq {runner : CodeRunner σ} {name : Text} {block : CodeBlock}
    (h : runner.language block.language = .interpreter name) (blocks : List CodeBlock) :
    runner.requests name (block :: blocks) =
      (block.body, runner.workingDir block.fenceOptions) :: runner.requests name blocks := by
  rw [requests, List.filter_cons_of_pos (by simpa using h), List.map_cons]
  rfl

@[simp] theorem requests_cons_of_ne {runner : CodeRunner σ} {name : Text} {block : CodeBlock}
    (h : runner.language block.language ≠ .interpreter name) (blocks : List CodeBlock) :
    runner.requests name (block :: blocks) = runner.requests name blocks := by
  rw [requests, List.filter_cons_of_neg (by simpa using h)]
  rfl

theorem requests_eq {runner next : CodeRunner σ} (hlanguage : next.language = runner.language)
    (hworkspace : next.workspace = runner.workspace) (name : Text) (blocks : List CodeBlock) :
    next.requests name blocks = runner.requests name blocks := by
  unfold requests workingDir
  rw [hlanguage, hworkspace]

/-- The requests to an interpreter are made by its own steps. -/
theorem requests_map_block (runner : CodeRunner σ) (name : Text) (steps : List (Step ω)) :
    runner.requests name (steps.map Step.block) =
      (runner.own name steps).map fun step ↦
        (step.block.body, runner.workingDir step.block.fenceOptions) := by
  rw [requests, own, List.filter_map, List.map_map]
  rfl

/-- A runner that is new, with one interpreter beside the built-in one. -/
def single (profile : Profile) : CodeRunner σ :=
  .new {} { interpreters := ⟨[("repl".toList, profile)]⟩ } ['/']

variable {host : Host ω σ} {runner next : CodeRunner σ} {block : CodeBlock} {dir : Text}
  {scene later : Scene ω} {result : Except Error Text}

/-! ### What a step does -/

/-- What a block that has come to a result has done: it has been run by one interpreter, which alone
has changed, or by the shell, or by nothing. -/
theorem dispatch_cases
    (h : (runner.dispatch host block dir).outcome scene = (.ok (result, next), later)) :
    (∃ name interpreter last, runner.language block.language = .interpreter name ∧
      runner.interpreters.get? name = some interpreter ∧
      (interpreter.execute host block.body dir).outcome scene = (.ok (result, last), later) ∧
      next = { runner with interpreters := runner.interpreters.replace name last }) ∨
    (runner.language block.language = .shell ∧ next = runner ∧
      (ShellCommand.execute host runner.shell block.body dir).outcome scene =
        (.ok result, later)) ∨
    (next = runner ∧ later.world = scene.world ∧ runner.language block.language ≠ .shell ∧
      ∀ name, runner.language block.language = .interpreter name →
        runner.interpreters.get? name = none) := by
  unfold dispatch at h
  cases hlanguage : runner.language block.language with
  | shell =>
    simp only [hlanguage, Task.outcome_bind] at h
    rcases hrun : (ShellCommand.execute host runner.shell block.body dir).outcome scene with
      ⟨answer, finished⟩
    rw [hrun] at h
    cases answer with
    | error reason => cases h
    | ok answered =>
      cases h
      exact .inr (.inl ⟨rfl, rfl, rfl⟩)
  | interpreter name =>
    cases hget : runner.interpreters.get? name with
    | none =>
      simp only [hlanguage, hget, Task.outcome_pure] at h
      cases h
      refine .inr (.inr ⟨rfl, rfl, nofun, fun other hother ↦ ?_⟩)
      cases hother
      exact hget
    | some interpreter =>
      simp only [hlanguage, hget, Task.outcome_bind] at h
      rcases hrun : (interpreter.execute host block.body dir).outcome scene with ⟨answer, finished⟩
      rw [hrun] at h
      cases answer with
      | error reason => cases h
      | ok answered =>
        cases h
        exact .inl ⟨name, interpreter, answered.2, rfl, hget, hrun, rfl⟩
  | unsupported tag =>
    simp only [hlanguage, Task.outcome_bind, Task.outcome_emit, Task.outcome_pure] at h
    cases h
    exact .inr (.inr ⟨rfl, rfl, nofun, nofun⟩)

/-- Only an interpreter or the shell keeps a block from coming to a result. -/
theorem dispatch_halt {reason : Halt}
    (h : (runner.dispatch host block dir).outcome scene = (.error reason, later)) :
    (∃ name interpreter, runner.language block.language = .interpreter name ∧
      runner.interpreters.get? name = some interpreter ∧
      (interpreter.execute host block.body dir).outcome scene = (.error reason, later)) ∨
    (runner.language block.language = .shell ∧
      (ShellCommand.execute host runner.shell block.body dir).outcome scene =
        (.error reason, later)) := by
  unfold dispatch at h
  cases hlanguage : runner.language block.language with
  | shell =>
    simp only [hlanguage, Task.outcome_bind] at h
    rcases hrun : (ShellCommand.execute host runner.shell block.body dir).outcome scene with
      ⟨answer, finished⟩
    rw [hrun] at h
    cases answer with
    | error reason =>
      cases h
      exact .inr ⟨rfl, rfl⟩
    | ok answered => cases h
  | interpreter name =>
    cases hget : runner.interpreters.get? name with
    | none =>
      simp only [hlanguage, hget, Task.outcome_pure] at h
      cases h
    | some interpreter =>
      simp only [hlanguage, hget, Task.outcome_bind] at h
      rcases hrun : (interpreter.execute host block.body dir).outcome scene with ⟨answer, finished⟩
      rw [hrun] at h
      cases answer with
      | error reason =>
        cases h
        exact .inl ⟨name, interpreter, rfl, hget, hrun⟩
      | ok answered => cases h
  | unsupported tag =>
    simp only [hlanguage, Task.outcome_bind, Task.outcome_emit, Task.outcome_pure] at h
    cases h

/-- Running a block changes nothing but one interpreter. -/
theorem dispatch_keeps
    (h : (runner.dispatch host block dir).outcome scene = (.ok (result, next), later)) :
    next.noExec = runner.noExec ∧ next.workspace = runner.workspace ∧ next.shell = runner.shell ∧
      next.profiles = runner.profiles := by
  obtain ⟨name, interpreter, last, -, -, -, rfl⟩ | ⟨-, rfl, -⟩ | ⟨rfl, -⟩ := dispatch_cases h <;>
    exact ⟨rfl, rfl, rfl, rfl⟩

/-- Blocks are dispatched as before. -/
theorem language_eq (h : next.profiles = runner.profiles) : next.language = runner.language := by
  funext tag
  rw [language, language, h]

/-- The interpreter that a block is dispatched to runs it. -/
theorem dispatch_own {name : Text} {interpreter : Interpreter σ}
    (h : (runner.dispatch host block dir).outcome scene = (.ok (result, next), later))
    (hlanguage : runner.language block.language = .interpreter name)
    (hget : runner.interpreters.get? name = some interpreter) :
    ∃ after,
      (interpreter.execute host block.body dir).outcome scene = (.ok (result, after), later) ∧
      next.interpreters.get? name = some after := by
  obtain ⟨called, before, after, hcalled, hbefore, hrun, rfl⟩ | ⟨hshell, -⟩ | ⟨-, -, -, hnone⟩ :=
    dispatch_cases h
  · cases hlanguage.symm.trans hcalled
    cases hget.symm.trans hbefore
    exact ⟨after, hrun, Registry.get?_replace_self after hget⟩
  · cases hlanguage.symm.trans hshell
  · cases hget.symm.trans (hnone name hlanguage)

/-- The other interpreters remain as they are. -/
theorem dispatch_other {name : Text}
    (h : (runner.dispatch host block dir).outcome scene = (.ok (result, next), later))
    (hlanguage : runner.language block.language ≠ .interpreter name) :
    next.interpreters.get? name = runner.interpreters.get? name := by
  obtain ⟨called, before, after, hcalled, -, -, rfl⟩ | ⟨-, rfl, -⟩ | ⟨rfl, -⟩ := dispatch_cases h
  · refine Registry.get?_replace_of_ne ?_ after
    rintro rfl
    exact hlanguage hcalled
  · rfl
  · rfl

/-- A rendering leaves blocks to be dispatched as before. -/
theorem Rendering.language_eq {last : CodeRunner σ} {steps : List (Step ω)}
    (h : Rendering host runner scene steps last later) :
    last.language = runner.language := by
  induction h with
  | nil => rfl
  | cons hrun _ ih => exact ih.trans (CodeRunner.language_eq (dispatch_keeps hrun).2.2.2)

theorem Rendering.keeps {last : CodeRunner σ} {steps : List (Step ω)}
    (h : Rendering host runner scene steps last later) :
    last.workspace = runner.workspace ∧ last.shell = runner.shell := by
  induction h with
  | nil => exact ⟨rfl, rfl⟩
  | cons hrun _ ih =>
    obtain ⟨-, hworkspace, hshell, -⟩ := dispatch_keeps hrun
    exact ⟨ih.1.trans hworkspace, ih.2.trans hshell⟩

/-- An interpreter that is not there stays absent. -/
theorem dispatch_none {name : Text}
    (h : (runner.dispatch host block dir).outcome scene = (.ok (result, next), later))
    (hget : runner.interpreters.get? name = none) : next.interpreters.get? name = none := by
  obtain ⟨called, before, after, -, hbefore, -, rfl⟩ | ⟨-, rfl, -⟩ | ⟨rfl, -⟩ := dispatch_cases h
  · refine (Registry.get?_replace_of_ne ?_ after).trans hget
    rintro rfl
    cases hget.symm.trans hbefore
  · exact hget
  · exact hget

/-! ### Rendering as steps -/

/-- A block is rendered by running it and showing its result. -/
theorem renderBlock_outcome (henabled : runner.noExec = false) :
    (runner.renderBlock host block).outcome scene =
      match (runner.dispatch host block (runner.workingDir block.fenceOptions)).outcome
        (scene.logged (FenceOptions.warnings block.options)) with
      | (.ok (result, next), mid) =>
        (.ok (Step.shown ⟨block, result, scene, mid.logged (reports block result)⟩, next),
          mid.logged (reports block result))
      | (.error reason, mid) => (.error reason, mid) := by
  unfold renderBlock
  dsimp only
  rw [Task.outcome_bind, Task.outcome_emitAll]
  dsimp only
  rw [henabled, if_neg Bool.false_ne_true, Task.outcome_bind]
  unfold execute
  rw [Task.outcome_bind]
  rcases (runner.dispatch host block (runner.workingDir block.fenceOptions)).outcome
    (scene.logged (FenceOptions.warnings block.options)) with ⟨answer, mid⟩
  obtain reason | ⟨e | output, next⟩ := answer
  · rfl
  · dsimp only
    rw [Task.outcome_bind, Task.outcome_emit]
    rfl
  · dsimp only
    rw [Task.outcome_pure]
    dsimp only [reports]
    rw [Task.outcome_pure, Scene.logged_nil]
    rfl

/-- A block that has been rendered is a rendering of one step. -/
theorem renderBlock_rendering {shown : Text} (henabled : runner.noExec = false)
    (h : (runner.renderBlock host block).outcome scene = (.ok (shown, next), later)) :
    ∃ result, Rendering host runner scene [⟨block, result, scene, later⟩] next later := by
  rw [renderBlock_outcome henabled] at h
  rcases hrun : (runner.dispatch host block (runner.workingDir block.fenceOptions)).outcome
    (scene.logged (FenceOptions.warnings block.options)) with ⟨answer, mid⟩
  rw [hrun] at h
  cases answer with
  | error reason => cases h
  | ok answered =>
    cases h
    exact ⟨answered.1, .cons hrun (.nil _ _)⟩

/-- **Renderings.** Rendering segments that comes to a result is a rendering of their blocks, and
one that comes to a halt is a rendering of the first blocks, up to a block that comes to a halt. -/
theorem renderSegments_ensures (henabled : runner.noExec = false) (segments : List Segment)
    (scene : Scene ω) :
    Task.Ensures (· = scene) (runner.renderSegments host segments)
      (fun (text, last) later ↦ ∃ steps, Rendering host runner scene steps last later ∧
        steps.map Step.block = Segment.blocks segments ∧
        text = Segment.fill segments (steps.map Step.shown))
      (fun reason later ↦ ∃ steps block rest mid between,
        Rendering host runner scene steps mid between ∧
        Segment.blocks segments = steps.map Step.block ++ block :: rest ∧
        (mid.dispatch host block (mid.workingDir block.fenceOptions)).outcome
          (between.logged (FenceOptions.warnings block.options)) = (.error reason, later)) := by
  induction segments generalizing runner scene with
  | nil =>
    refine .pure fun later hlater ↦ ?_
    obtain rfl : later = scene := hlater
    exact ⟨[], .nil runner later, rfl, rfl⟩
  | cons segment rest ih =>
    cases segment with
    | literal text =>
      refine (ih henabled scene).bind fun (out, last) ↦ .pure ?_
      rintro later ⟨steps, hsteps, hblocks, rfl⟩
      exact ⟨steps, hsteps, hblocks, rfl⟩
    | code block =>
      rintro start rfl
      rw [renderSegments, Task.outcome_bind, renderBlock_outcome henabled]
      rcases hrun : (runner.dispatch host block (runner.workingDir block.fenceOptions)).outcome
        (start.logged (FenceOptions.warnings block.options)) with ⟨result, mid⟩
      cases result with
      | error reason => exact ⟨[], block, _, runner, start, .nil runner start, rfl, hrun⟩
      | ok answered =>
        obtain ⟨result, next⟩ := answered
        have hnext : next.noExec = false := (dispatch_keeps hrun).1.trans henabled
        have hrest := ih hnext (mid.logged (reports block result))
        dsimp only
        rw [Task.outcome_bind]
        -- The block is one step more, before those of the segments behind it.
        rcases hrender : (next.renderSegments host rest).outcome
          (mid.logged (reports block result)) with ⟨rendered, later⟩
        cases rendered with
        | error reason =>
          obtain ⟨steps, halting, more, last, between, hsteps, hblocks, hhalt⟩ :=
            hrest.halt rfl hrender
          exact ⟨_, halting, more, last, between, .cons hrun hsteps,
            by rw [Segment.blocks, hblocks]; rfl, hhalt⟩
        | ok rendered =>
          obtain ⟨steps, hsteps, hblocks, htext⟩ := hrest.result rfl hrender
          exact ⟨_, .cons hrun hsteps, by rw [List.map_cons, hblocks]; rfl,
            by rw [htext]; rfl⟩

end CodeRunner

end Weave
