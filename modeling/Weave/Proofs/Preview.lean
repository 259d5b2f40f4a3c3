import Weave.Proofs.Listing
import Weave.Run.Pipeline

/-!
# Pipelines in which no block is run

Where no block is run, a pipeline computes a function of the document and of the files that it
includes. Neither the interpreters and the shell of the settings nor the directory of the blocks
play any part in it, nothing but the log is changed, and the pipeline can take the next document as
if it were new.

## Main definitions

* `Weave.Filter.IsQuiet`: a filter that runs no block of a document.
* `Weave.Pipeline.preview`: what the standard pipeline makes of a document if it runs no block.
* `Weave.Pipeline.runAll`: documents that a pipeline takes one after the other.

## Main results

* `Weave.Filter.run_quiet`, `Weave.Pipeline.runFilters_quiet`: what quiet filters do.
* `Weave.Pipeline.run_withWorkspace`: what the standard pipeline does where no block is run.
* `Weave.Pipeline.runAll_noExec`: settings and workspace do not matter if blocks are not run.
-/

namespace Weave

variable {ω σ : Type}

/-! ### Filters that run no block -/

namespace Filter

/-- What a filter makes of a document if it runs no block, the files being read by `read`. -/
def preview (read : Text → Except Text Text) : Filter σ → Text → Except Error Text
  | .comment, document => .ok (Comment.strip document)
  | .inclusion base, document =>
    Include.resolve (fun target ↦ read (Path.join base target)) document
  | .contents, document => .ok (Contents.insert document)
  | .execute _, document => .ok (Segment.listing document)
  | .blankLines, document => .ok (BlankLine.collapse document)

/-- The warnings of a filter that runs no block. -/
def remarks : Filter σ → Text → List Event
  | .comment, document => Comment.warnings document
  | .execute _, document => Segment.remarks (Segment.scan document) ++ Segment.warnings document
  | _, _ => []

/-- A filter that runs no block of the document: no session of it is running, and blocks are not run
or there are none. -/
def IsQuiet : Filter σ → Text → Prop
  | .execute runner, document =>
    (∀ entry ∈ runner.interpreters.entries, entry.2.session = none) ∧
      (runner.noExec = true ∨ Segment.blocks (Segment.scan document) = [])
  | _, _ => True

/-- A filter that runs no block changes nothing but the log, itself included. -/
theorem run_quiet (host : Host ω σ) {filter : Filter σ} {document : Text}
    (h : filter.IsQuiet document) (scene : Scene ω) :
    (filter.run host document).outcome scene =
      (.ok (filter.preview (host.readText scene.world) document, filter),
        scene.logged (filter.remarks document)) := by
  cases filter with
  | comment => rfl
  | inclusion base =>
    rw [run, Task.outcome_bind, Task.outcome_world]
    simp [preview, remarks]
  | contents => simp [run, preview, remarks]
  | execute runner =>
    rw [run, Task.outcome_bind, runner.run_listed host h.1 h.2]
    rfl
  | blankLines => simp [run, preview, remarks]

end Filter

namespace Pipeline

/-- What filters make of a document one after the other if they run no block. -/
def previewAll (read : Text → Except Text Text) : List (Filter σ) → Text → Except Error Text
  | [], document => .ok document
  | filter :: rest, document =>
    match filter.preview read document with
    | .error e => .error e
    | .ok out => previewAll read rest out

/-- The log of filters that run no block. -/
def remarksAll (verbose : Bool) (read : Text → Except Text Text) :
    List (Filter σ) → Text → List Event
  | [], _ => []
  | filter :: rest, document =>
    (if verbose then [progress "running filter" filter.name document] else []) ++
      filter.remarks document ++
      match filter.preview read document with
      | .error _ => []
      | .ok out =>
        (if verbose then [progress "filter done" filter.name out] else []) ++
          remarksAll verbose read rest out

/-- Every filter runs no block of the document that it is given. -/
def AllQuiet (read : Text → Except Text Text) : List (Filter σ) → Text → Prop
  | [], _ => True
  | filter :: rest, document =>
    filter.IsQuiet document ∧ ∀ out, filter.preview read document = .ok out → AllQuiet read rest out

/-- A report is written to the log of a verbose run only. -/
theorem outcome_reported {α : Type} (verbose : Bool) (event : Event) (next : Unit → Task ω α)
    (scene : Scene ω) :
    (if verbose then Task.emit event >>= next else next ()).outcome scene =
      (next ()).outcome (scene.logged (if verbose then [event] else [])) := by
  cases verbose with
  | false => simp
  | true =>
    rw [if_pos rfl, if_pos rfl, Task.outcome_bind, Task.outcome_emit]
    rfl

/-- Filters that run no block change nothing but the log, themselves included. -/
theorem runFilters_quiet (host : Host ω σ) (verbose : Bool) {filters : List (Filter σ)}
    {document : Text} {scene : Scene ω}
    (h : AllQuiet (host.readText scene.world) filters document) :
    (runFilters host verbose document filters).outcome scene =
      (.ok (previewAll (host.readText scene.world) filters document, filters),
        scene.logged (remarksAll verbose (host.readText scene.world) filters document)) := by
  induction filters generalizing document scene with
  | nil => simp [runFilters, previewAll, remarksAll]
  | cons filter rest ih =>
    obtain ⟨hquiet, hrest⟩ := h
    rw [runFilters, outcome_reported]
    dsimp only
    rw [Task.outcome_bind, filter.run_quiet host hquiet, previewAll, remarksAll,
      Scene.world_logged]
    cases hpreview : filter.preview (host.readText scene.world) document with
    | error e => simp [Scene.logged_logged]
    | ok out =>
      have hlater (events : List Event) : (runFilters host verbose out rest).outcome
          (scene.logged events) = (.ok (previewAll (host.readText scene.world) rest out, rest),
            (scene.logged events).logged
              (remarksAll verbose (host.readText scene.world) rest out)) :=
        ih (hrest out hpreview)
      dsimp only
      rw [outcome_reported, Task.outcome_bind, Scene.logged_logged, Scene.logged_logged, hlater]
      simp [Scene.logged_logged]

/-! ### The standard pipeline -/

/-- What the standard pipeline makes of a document if it runs no block. -/
def preview (options : RunOptions) (base : Text) (read : Text → Except Text Text)
    (document : Text) : Except Error Text :=
  match Include.resolve (fun target ↦ read (Path.join base target)) (Comment.strip document) with
  | .error e => .error e
  | .ok included =>
    let listed := Segment.listing (Contents.insert included)
    .ok (if options.collapseBlankLines then BlankLine.collapse listed else listed)

/-- The log of the standard pipeline if it runs no block. -/
def remarks (options : RunOptions) (base : Text) (read : Text → Except Text Text)
    (document : Text) : List Event :=
  let pipeline : Pipeline Empty := withWorkspace options {} base []
  remarksAll options.verbose read pipeline.filters document

variable {options : RunOptions} {settings : Settings} {base workspace : Text}
  {read : Text → Except Text Text}

/-- Neither the settings nor the workspace play a part in what is previewed. -/
theorem previewAll_withWorkspace (document : Text) :
    previewAll read (withWorkspace options settings base workspace : Pipeline σ).filters document =
      preview options base read document := by
  simp only [withWorkspace, List.cons_append, List.nil_append, previewAll, Filter.preview, preview]
  cases Include.resolve (fun target ↦ read (Path.join base target)) (Comment.strip document) with
  | error e => rfl
  | ok included => cases options.collapseBlankLines <;> rfl

/-- Neither the settings nor the workspace play a part in what is logged. -/
theorem remarksAll_withWorkspace (document : Text) :
    remarksAll options.verbose read
        (withWorkspace options settings base workspace : Pipeline σ).filters document =
      remarks options base read document := by
  rw [remarks, withWorkspace, withWorkspace]
  cases options.collapseBlankLines <;> rfl

/-- The filters of the standard pipeline run no block if blocks are not run, or if there are none
once the files have been included and the table of contents has been put in. -/
theorem allQuiet_withWorkspace {document : Text}
    (h : options.noExec = true ∨ ∀ included,
      Include.resolve (fun target ↦ read (Path.join base target)) (Comment.strip document) =
        .ok included → Segment.blocks (Segment.scan (Contents.insert included)) = []) :
    AllQuiet read (withWorkspace options settings base workspace : Pipeline σ).filters
      document := by
  -- Comments, files and the table of contents run no block, so they only hand on what they make.
  refine ⟨trivial, fun stripped hstripped ↦ ⟨trivial, fun included hincluded ↦ ⟨trivial,
    fun inserted hinserted ↦ ⟨?_, fun _ _ ↦ ?_⟩⟩⟩⟩
  · cases hstripped
    cases hinserted
    exact ⟨fun _ hentry ↦ (CodeRunner.mem_entries_new hentry).1,
      h.imp_right fun hnone ↦ hnone included hincluded⟩
  · cases options.collapseBlankLines with
    | false => trivial
    | true => exact ⟨trivial, fun _ _ ↦ trivial⟩

/-- **The standard pipeline without blocks.** If blocks are not run, or if there are none once the
files have been included and the table of contents has been put in, the pipeline returns a function
of its options, of the files and of the document. It changes nothing but the log, itself
included. -/
theorem run_withWorkspace (host : Host ω σ) {document : Text} {scene : Scene ω}
    (h : options.noExec = true ∨ ∀ included,
      Include.resolve (fun target ↦ host.readText scene.world (Path.join base target))
        (Comment.strip document) = .ok included →
          Segment.blocks (Segment.scan (Contents.insert included)) = []) :
    ((withWorkspace options settings base workspace).run host document).outcome scene =
      (.ok (preview options base (host.readText scene.world) document,
          withWorkspace options settings base workspace),
        scene.logged (remarks options base (host.readText scene.world) document)) := by
  have hverbose : (withWorkspace options settings base workspace : Pipeline σ).verbose =
      options.verbose := rfl
  rw [run, Task.outcome_bind, runFilters_quiet host _ (allQuiet_withWorkspace h),
    previewAll_withWorkspace, hverbose, remarksAll_withWorkspace]
  rfl

/-! ### One document after the other -/

/-- Passes documents through a pipeline, each through what the one before it has left. -/
def runAll (host : Host ω σ) (pipeline : Pipeline σ) :
    List Text → Task ω (List (Except Error Text) × Pipeline σ)
  | [] => return ([], pipeline)
  | document :: rest => do
    let (answer, pipeline) ← pipeline.run host document
    let (answers, pipeline) ← runAll host pipeline rest
    return (answer :: answers, pipeline)

/-- If a run of a pipeline on any of some documents changes nothing but the log, whatever is in the
log already, then so do its runs on all of them. -/
theorem runAll_of_run (host : Host ω σ) {pipeline : Pipeline σ} {documents : List Text}
    {answer : Text → Except Error Text} {events : Text → List Event} {scene : Scene ω}
    (h : ∀ document ∈ documents, ∀ earlier,
      (pipeline.run host document).outcome (scene.logged earlier) =
        (.ok (answer document, pipeline), scene.logged (earlier ++ events document)))
    (earlier : List Event) :
    (pipeline.runAll host documents).outcome (scene.logged earlier) =
      (.ok (documents.map answer, pipeline),
        scene.logged (earlier ++ documents.flatMap events)) := by
  induction documents generalizing earlier with
  | nil => simp [runAll]
  | cons document rest ih =>
    rw [runAll, Task.outcome_bind, h document List.mem_cons_self]
    dsimp only
    rw [Task.outcome_bind, ih fun other hother ↦ h other (List.mem_cons_of_mem _ hother)]
    simp

/-- The interpreters of the filters that run blocks. -/
def interpreters (pipeline : Pipeline σ) : List (Interpreter σ) :=
  pipeline.filters.flatMap fun
    | .execute runner => runner.interpreters.entries.map (·.2)
    | _ => []

/-- The interpreters of the standard pipeline have not been started. -/
theorem mem_interpreters_withWorkspace {interpreter : Interpreter σ}
    (h : interpreter ∈ (withWorkspace options settings base workspace).interpreters) :
    interpreter.session = none ∧ interpreter.spawnCount = 0 := by
  have hmem : interpreter ∈
      (CodeRunner.new options settings workspace).interpreters.entries.map (·.2) := by
    unfold interpreters withWorkspace at h
    cases hcollapse : options.collapseBlankLines <;> simpa [hcollapse] using h
  obtain ⟨entry, hentry, rfl⟩ := List.mem_map.mp hmem
  exact CodeRunner.mem_entries_new hentry

/-- **Settings and workspace do not matter if blocks are not run.** Whatever its settings and its
workspace, the standard pipeline gives for each document of a sequence the text or the error that
`preview` makes of the document, of the files, and of the options and the directory that files are
included from. It changes nothing but the log, whatever the processes and files are: no shell and no
interpreter is started, and all of its interpreters are stopped and have never been started. -/
theorem runAll_noExec (options : RunOptions) (base : Text) (settings : Settings)
    (workspace : Text) (host : Host ω σ) (documents : List Text) (scene : Scene ω) :
    let pipeline : Pipeline σ :=
      withWorkspace { options with noExec := true } settings base workspace
    let read := host.readText scene.world
    (pipeline.runAll host documents).outcome scene =
        (.ok (documents.map (preview options base read), pipeline),
          scene.logged (documents.flatMap (remarks options base read))) ∧
      ∀ interpreter ∈ pipeline.interpreters,
        interpreter.isReady = false ∧ interpreter.spawnCount = 0 := by
  intro pipeline read
  constructor
  · have hrun (document : Text) (earlier : List Event) :
        (pipeline.run host document).outcome (scene.logged earlier) =
          (.ok (preview options base read document, pipeline),
            scene.logged (earlier ++ remarks options base read document)) := by
      rw [← Scene.logged_logged]
      exact run_withWorkspace host (.inl rfl)
    simpa using runAll_of_run host (fun document _ ↦ hrun document) []
  · intro interpreter hmem
    obtain ⟨hsession, hcount⟩ := mem_interpreters_withWorkspace hmem
    exact ⟨by rw [Interpreter.isReady, hsession]; rfl, hcount⟩

end Pipeline

end Weave
