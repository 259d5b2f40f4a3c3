import Weave.Proofs.Preview

/-!
# Runs without processes

A block whose language is not known, or that gives the shell nothing to do, starts no process. A
pipeline none of whose blocks starts a process, whether they are run or only shown, comes to an end
and leaves the world as it is.

## Main definitions

* `Weave.CodeRunner.Idles`: a block for which no process is started.
* `Weave.Filter.IsIdle`, `Weave.Pipeline.IsIdle`: no process is started for a document.

## Main results

* `Weave.Pipeline.IsIdle.outcome`: a pipeline that starts no process leaves the world as it is.
* `Weave.Pipeline.isIdle_withWorkspace`, `Weave.Pipeline.isIdle_single`: pipelines that do not run
  blocks start no process.
-/

namespace Weave

variable {ω σ : Type} {host : Host ω σ} {world : ω}

/-! ### Blocks -/

namespace CodeRunner

variable {runner next : CodeRunner σ} {block : CodeBlock}

/-- No process is started for a block: its language is not known, or it is a block for the shell
that holds no command or has no directory to run in. -/
def Idles (host : Host ω σ) (world : ω) (runner : CodeRunner σ) (block : CodeBlock) : Prop :=
  match runner.language block.language with
  | .unsupported _ => True
  | .shell => ShellCommand.join block.body = [] ∨
      host.isDirectory world (runner.workingDir block.fenceOptions) = false
  | .interpreter name => runner.interpreters.get? name = none

/-- A block for which no process is started leaves the runner and the world as they are. -/
theorem dispatch_idle (h : runner.Idles host world block) (scene : Scene ω)
    (hworld : scene.world = world) :
    ∃ result later, (runner.dispatch host block (runner.workingDir block.fenceOptions)).outcome
      scene = (.ok (result, runner), later) ∧ later.world = world := by
  unfold Idles at h
  unfold dispatch
  cases hlanguage : runner.language block.language with
  | unsupported tag => exact ⟨_, _, rfl, hworld⟩
  | interpreter name =>
    simp only [hlanguage] at h
    simp only [h]
    exact ⟨_, _, rfl, hworld⟩
  | shell =>
    simp only [hlanguage] at h
    unfold ShellCommand.execute
    simp only [Task.outcome_bind]
    by_cases hempty : ShellCommand.join block.body = []
    · rw [if_pos hempty]
      exact ⟨_, _, rfl, hworld⟩
    · have hdir := h.resolve_left hempty
      rw [if_neg hempty, Task.outcome_bind, Task.outcome_world]
      dsimp only
      rw [hworld, hdir, Bool.not_false, if_pos rfl]
      exact ⟨_, _, rfl, hworld⟩

/-- Segments for whose blocks no process is started leave the runner and the world as they are. -/
theorem renderSegments_idle (henabled : runner.noExec = false) {segments : List Segment}
    (h : ∀ block ∈ Segment.blocks segments, runner.Idles host world block) :
    Task.Ensures (·.world = world) (runner.renderSegments host segments)
      (fun result later ↦ result.2 = runner ∧ later.world = world) (fun _ _ ↦ False) := by
  induction segments with
  | nil => exact .pure fun _ hscene ↦ ⟨rfl, hscene⟩
  | cons segment rest ih =>
    cases segment with
    | literal text => exact (ih h).bind fun result ↦ .pure fun _ hlater ↦ hlater
    | code block =>
      obtain ⟨hblock, hrest⟩ := List.forall_mem_cons.mp h
      have hshown : Task.Ensures (·.world = world) (runner.renderBlock host block)
          (fun result later ↦ later.world = world ∧ result.2 = runner) (fun _ _ ↦ False) := by
        intro scene hscene
        obtain ⟨result, later, hrun, hlater⟩ :=
          dispatch_idle hblock (scene.logged (FenceOptions.warnings block.options)) hscene
        rw [renderBlock_outcome henabled, hrun]
        exact ⟨hlater, rfl⟩
      refine hshown.bind fun (shown, next) ↦ .assume fun hnext ↦ ?_
      obtain rfl : next = runner := hnext
      exact (ih hrest).bind fun result ↦ .pure fun _ hlater ↦ hlater

/-- No process is started for a document: its blocks are not run, or none of them starts one. -/
def IsIdle (host : Host ω σ) (world : ω) (runner : CodeRunner σ) (document : Text) : Prop :=
  runner.noExec = true ∨
    ∀ block ∈ Segment.blocks (Segment.scan document), runner.Idles host world block

/-- A document for which no process is started leaves the runner and the world as they are, if no
session is running. -/
theorem IsIdle.run {document : Text} (h : runner.IsIdle host world document)
    (hsessions : ∀ entry ∈ runner.interpreters.entries, entry.2.session = none) :
    Task.Ensures (·.world = world) (runner.run host document)
      (fun result later ↦ result.2 = runner ∧ later.world = world) (fun _ _ ↦ False) := by
  cases hexec : runner.noExec with
  | true =>
    intro scene hscene
    rw [run_listed host hsessions (.inl hexec)]
    exact ⟨rfl, hscene⟩
  | false =>
    have hblocks := h.resolve_left (by simp [hexec])
    refine ((renderSegments_idle hexec hblocks).weaken (fun _ hscene ↦ hscene)
      (fun _ _ hpost ↦ hpost.symm) fun _ _ ↦ False.elim).bind fun (out, next) ↦
        .assume fun hnext ↦ ?_
    obtain rfl : next = runner := hnext
    intro scene hscene
    rw [Task.outcome_bind, Task.outcome_emitAll]
    dsimp only
    rw [Task.outcome_bind, stopSessions, Task.outcome_bind, stopEach_of_idle host hsessions]
    exact ⟨rfl, hscene⟩

end CodeRunner

/-! ### Filters and pipelines -/

namespace Filter

/-- No process is started for a document, and no session is running. -/
def IsIdle (host : Host ω σ) (world : ω) : Filter σ → Text → Prop
  | .execute runner, document =>
    (∀ entry ∈ runner.interpreters.entries, entry.2.session = none) ∧
      runner.IsIdle host world document
  | _, _ => True

/-- A filter that starts no process leaves the world as it is. -/
theorem IsIdle.run {filter : Filter σ} {document : Text} (h : filter.IsIdle host world document) :
    Task.Ensures (·.world = world) (filter.run host document) (fun _ later ↦ later.world = world)
      (fun _ _ ↦ False) := by
  have hquiet (h : filter.IsQuiet document) : Task.Ensures (·.world = world)
      (filter.run host document) (fun _ later ↦ later.world = world) (fun _ _ ↦ False) := by
    intro scene hscene
    rw [filter.run_quiet host h]
    exact hscene
  cases filter with
  | execute runner => exact (h.2.run h.1).bind fun _ ↦ .pure fun _ hlater ↦ hlater.2
  | comment => exact hquiet trivial
  | inclusion base => exact hquiet trivial
  | contents => exact hquiet trivial
  | blankLines => exact hquiet trivial

end Filter

namespace Pipeline

/-- No process is started for a document by filters one after the other. -/
def AllIdle (host : Host ω σ) (world : ω) : List (Filter σ) → Text → Prop
  | [], _ => True
  | filter :: rest, document =>
    filter.IsIdle host world document ∧ ∀ scene out next later, scene.world = world →
      (filter.run host document).outcome scene = (.ok (.ok out, next), later) →
        AllIdle host world rest out

/-- No process is started for a document by a pipeline. -/
def IsIdle (host : Host ω σ) (world : ω) (pipeline : Pipeline σ) (document : Text) : Prop :=
  AllIdle host world pipeline.filters document

/-- Filters that start no process whatever the document is. -/
theorem allIdle_of_forall {filters : List (Filter σ)}
    (h : ∀ filter ∈ filters, ∀ document, filter.IsIdle host world document) (document : Text) :
    AllIdle host world filters document := by
  induction filters generalizing document with
  | nil => trivial
  | cons filter rest ih =>
    obtain ⟨hfilter, hrest⟩ := List.forall_mem_cons.mp h
    exact ⟨hfilter document, fun _ out _ _ _ _ ↦ ih hrest out⟩

/-- Filters that start no process leave the world as it is. -/
theorem runFilters_idle (verbose : Bool) {filters : List (Filter σ)} {document : Text}
    (h : AllIdle host world filters document) :
    Task.Ensures (·.world = world) (runFilters host verbose document filters)
      (fun _ later ↦ later.world = world) (fun _ _ ↦ False) := by
  induction filters generalizing document with
  | nil => exact .pure fun _ hscene ↦ hscene
  | cons filter rest ih =>
    obtain ⟨hfilter, hrest⟩ := h
    intro scene hscene
    rw [runFilters, outcome_reported]
    dsimp only
    rw [Task.outcome_bind]
    generalize hstart : scene.logged _ = start
    have hworld : start.world = world := by rw [← hstart, Scene.world_logged, hscene]
    rcases hrun : (filter.run host document).outcome start with ⟨answer, later⟩
    cases answer with
    | error reason => exact hfilter.run.halt hworld hrun
    | ok answered =>
      have hlater : later.world = world := hfilter.run.result hworld hrun
      obtain ⟨e | out, next⟩ := answered
      · exact hlater
      · dsimp only
        rw [outcome_reported]
        exact ((ih (hrest start out next later hworld hrun)).bind fun _ ↦ .pure fun _ hdone ↦ hdone)
          _ hlater

/-- **Pipelines without processes.** A pipeline that starts no process for a document comes to an
end and leaves the world as it is. -/
theorem IsIdle.outcome {pipeline : Pipeline σ} {document : Text}
    (h : pipeline.IsIdle host world document) :
    Task.Ensures (·.world = world) (pipeline.run host document)
      (fun _ later ↦ later.world = world) (fun _ _ ↦ False) :=
  (runFilters_idle pipeline.verbose h).bind fun _ ↦ .pure fun _ hlater ↦ hlater

/-- The standard pipeline starts no process if blocks are not run. -/
theorem isIdle_withWorkspace {options : RunOptions} (h : options.noExec = true)
    (settings : Settings) (base workspace document : Text) :
    (withWorkspace options settings base workspace).IsIdle host world document := by
  refine allIdle_of_forall (fun filter hfilter document ↦ ?_) document
  have hcases : filter = .comment ∨ filter = .inclusion base ∨ filter = .contents ∨
      filter = .execute (.new options settings workspace) ∨ filter = .blankLines := by
    unfold withWorkspace at hfilter
    cases hcollapse : options.collapseBlankLines <;> simp [hcollapse] at hfilter <;> tauto
  obtain rfl | rfl | rfl | rfl | rfl := hcases
  · trivial
  · trivial
  · trivial
  · exact ⟨fun _ hentry ↦ (CodeRunner.mem_entries_new hentry).1, .inl h⟩
  · trivial

/-- One filter starts no process for a document if it does not do so by itself. -/
theorem isIdle_single {filter : Filter σ} {document : Text} {verbose : Bool}
    (h : filter.IsIdle host world document) :
    ({ filters := [filter], verbose } : Pipeline σ).IsIdle host world document :=
  ⟨h, fun _ _ _ _ _ _ ↦ trivial⟩

end Pipeline

end Weave
