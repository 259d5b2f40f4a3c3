import Weave.Proofs.InvocationSteps

/-!
# Processed documents

A document is read, settings are loaded for it if its pipeline takes any, and it is passed through
the pipeline. One of these can fail, and if none does the document is rendered.

## Main definitions

* `Weave.Processing`: how a document is processed.
* `Weave.Processing.standard`, `Weave.Processing.single`: the standard pipeline and one filter.
* `Weave.Processing.Fails`: a document that cannot be processed on a machine.
* `Weave.Processing.Prepares`: a step of an invocation that reads a document and loads its settings.

## Main results

* `Weave.Processing.Prepares.fails_iff`: processing fails exactly if the document cannot be read,
  its settings cannot be loaded, or a filter refuses what it is passed.
-/

namespace Weave

namespace SingleFilter

/-- Whether a filter takes settings: only code does. -/
def takesSettings : SingleFilter → Bool
  | .execute _ => true
  | _ => false

/-- The filter for a document in a directory. Code runs in `workspace`. -/
def toFilter (commandLine : CommandLine) (directory workspace : Text) (settings : Settings) :
    SingleFilter → Filter Child
  | .comment => .comment
  | .inclusion => .inclusion directory
  | .contents => .contents
  | .execute noExec =>
    .execute (.new (Invocation.runOptions commandLine noExec false) settings workspace)
  | .blankLines => .blankLines

end SingleFilter

/-- How a document is processed. -/
structure Processing where
  /-- The path of the document. -/
  input : Text
  /-- Whether settings are loaded for it. -/
  takesSettings : Bool
  /-- The pipeline that settings give in the directory of the document. -/
  pipeline : (directory : Text) → Settings → Pipeline Child

namespace Processing

open Invocation

/-! ### Subcommands -/

/-- A document is passed through the standard pipeline. Its code runs in `workspace`, or else in its
own directory. -/
def standard (options : RunOptions) (input : Text) (workspace : Option Text) : Processing where
  input
  takesSettings := true
  pipeline directory settings :=
    .withWorkspace options settings directory (workspace.getD directory)

/-- A document is passed through one filter. Code runs in `workspace`. -/
def single (commandLine : CommandLine) (kind : SingleFilter) (input workspace : Text) :
    Processing where
  input
  takesSettings := kind.takesSettings
  pipeline directory settings :=
    { filters := [kind.toFilter commandLine directory workspace settings]
      verbose := commandLine.verbose }

/-! ### Failures -/

variable (tools : Toolkit) (commandLine : CommandLine) (machine : Machine) (processing : Processing)

/-- The directory of a document on a machine. -/
def directory : Text :=
  let parent := Path.parent processing.input
  (machine.kernel.tree.canonical? machine.dir parent).getD parent

/-- The settings of a document on a machine: those that the command line names, or else those of the
directory of the document, if any are loaded. -/
def settings : Except Error Settings :=
  if processing.takesSettings then
    match commandLine.config with
    | some path => Settings.load machine.kernel.tree machine.dir path tools.settings
    | none =>
      (Settings.discover machine.kernel.tree machine.dir (processing.directory machine)
        tools.settings).map fun found ↦ found.getD {}
  else .ok {}

/-- A document cannot be processed on a machine: it cannot be read, settings cannot be loaded for
it, or a filter refuses what it is passed. -/
inductive Fails : Prop
  | reading {fault : FileFault}
      (hdocument : machine.kernel.tree.readText machine.dir processing.input = .error fault)
  | loading {e : Error}
      (hsettings : processing.settings tools commandLine machine = .error e)
  | filtering {document : Text} {settings : Settings} {e : Error} {next : Pipeline Child}
      {scene : Scene Machine}
      (hdocument : machine.kernel.tree.readText machine.dir processing.input = .ok document)
      (hsettings : processing.settings tools commandLine machine = .ok settings)
      (hrun : ((processing.pipeline (processing.directory machine) settings).run Machine.host
        document).outcome { world := machine } = (.ok (.error e, next), scene))

/-! ### Preparing -/

/-- A step prepares a document on a machine: it only looks, and comes to the pipeline and the
document exactly if the document can be read and its settings can be loaded. -/
structure Prepares (prepared : Invocation (Pipeline Child × Text)) : Prop where
  isLook : prepared.IsLook
  seen_eq_ok_iff : ∀ {pipeline document}, prepared.seen machine = .ok (pipeline, document) ↔
    machine.kernel.tree.readText machine.dir processing.input = .ok document ∧
      ∃ settings, processing.settings tools commandLine machine = .ok settings ∧
        processing.pipeline (processing.directory machine) settings = pipeline

section Prepare

variable {tools commandLine machine} {options : RunOptions} {input : Text}

/-- The settings for the directory of a document are those of the document. -/
theorem seen_settings_eq_ok_iff {processing : Processing} (h : processing.takesSettings = true)
    {found : Settings} :
    (Invocation.settings tools commandLine (processing.directory machine)).seen machine =
        .ok found ↔
      processing.settings tools commandLine machine = .ok found := by
  rw [Processing.settings, if_pos h, Invocation.settings]
  cases commandLine.config with
  | some path =>
    simp only [isLook_files.seen_bind_eq_ok_iff, isLook_dir.seen_bind_eq_ok_iff, seen_files,
      seen_dir, Except.ok.injEq, exists_eq_left', seen_accept_eq_ok_iff]
  | none =>
    simp only [isLook_files.seen_bind_eq_ok_iff, isLook_dir.seen_bind_eq_ok_iff, seen_files,
      seen_dir, Except.ok.injEq, exists_eq_left', (isLook_accept _).seen_bind_eq_ok_iff,
      seen_accept_eq_ok_iff, seen_pure]
    cases Settings.discover machine.kernel.tree machine.dir (processing.directory machine)
        tools.settings with
    | error e => simp [Except.map]
    | ok candidate => simp [Except.map]

/-- The standard pipeline is prepared for a document. -/
theorem prepares_prepare (workspace : Option Text) :
    (standard options input workspace).Prepares tools commandLine machine
      (prepare tools commandLine options input workspace) where
  isLook := isLook_prepare tools commandLine options input workspace
  seen_eq_ok_iff {pipeline document} := by
    let processing := standard options input workspace
    have hdirectory : (documentDir input).seen machine = .ok (processing.directory machine) := rfl
    have hsettings (found : Settings) : (Invocation.settings tools commandLine
        (processing.directory machine)).seen machine = .ok found ↔
          processing.settings tools commandLine machine = .ok found := seen_settings_eq_ok_iff rfl
    rw [prepare, (isLook_readInput input).seen_bind_eq_ok_iff]
    simp only [(isLook_documentDir _).seen_bind_eq_ok_iff, hdirectory, Except.ok.injEq,
      exists_eq_left', (isLook_settings tools commandLine _).seen_bind_eq_ok_iff, hsettings,
      seen_readInput_eq_ok_iff, seen_pure, Prod.mk.injEq]
    constructor
    · rintro ⟨document, hdocument, found, hfound, hpipeline, rfl⟩
      exact ⟨hdocument, found, hfound, hpipeline⟩
    · rintro ⟨hdocument, found, hfound, hpipeline⟩
      exact ⟨document, hdocument, found, hfound, hpipeline, rfl⟩

end Prepare

/-! ### Processing -/

section Process

variable {tools commandLine machine processing}
  {prepared : Invocation (Pipeline Child × Text)}

/-- If no process is started, processing a document fails only where something is refused. -/
theorem Prepares.refused (h : processing.Prepares tools commandLine machine prepared)
    (hidle : Idles prepared machine) {failure : Failure}
    (hfailure : (process prepared).seen machine = .error failure) : ∃ e, failure = .refused e := by
  rw [process, h.isLook.seen_bind] at hfailure
  cases hseen : prepared.seen machine with
  | error cause =>
    rw [hseen] at hfailure
    cases hfailure
    exact h.isLook.refused hseen
  | ok found =>
    rw [hseen] at hfailure
    dsimp only at hfailure
    rw [seen, outcome_pass] at hfailure
    dsimp only at hfailure
    rcases hrun : (found.1.run Machine.host found.2).outcome { world := machine } with
      ⟨reason | ⟨e | text, next⟩, scene⟩
    · exact ((hidle _ _ hseen).outcome.halt rfl hrun).elim
    · rw [hrun] at hfailure
      exact ⟨e, (Except.error.inj hfailure).symm⟩
    · rw [hrun] at hfailure
      cases hfailure

/-- **Failing documents.** If no process is started, processing a document fails exactly if the
document cannot be read, its settings cannot be loaded, or a filter refuses what it is passed. -/
theorem Prepares.fails_iff (h : processing.Prepares tools commandLine machine prepared)
    (hidle : Idles prepared machine) :
    processing.Fails tools commandLine machine ↔
      ∃ failure, (process prepared).seen machine = .error failure := by
  rw [process, h.isLook.seen_bind]
  cases hseen : prepared.seen machine with
  | error failure =>
    refine ⟨fun _ ↦ ⟨failure, rfl⟩, fun _ ↦ ?_⟩
    cases hdocument : machine.kernel.tree.readText machine.dir processing.input with
    | error fault => exact .reading hdocument
    | ok document =>
      cases hsettings : processing.settings tools commandLine machine with
      | error e => exact .loading hsettings
      | ok found =>
        cases hseen.symm.trans (h.seen_eq_ok_iff.mpr ⟨hdocument, found, hsettings, rfl⟩)
  | ok found =>
    obtain ⟨pipeline, document⟩ := found
    obtain ⟨hdocument, found, hfound, rfl⟩ := h.seen_eq_ok_iff.mp hseen
    dsimp only
    rw [seen, outcome_pass]
    dsimp only
    rcases hrun : ((processing.pipeline (processing.directory machine) found).run Machine.host
      document).outcome { world := machine } with ⟨reason | ⟨e | text, next⟩, scene⟩
    · exact ((hidle _ _ hseen).outcome.halt rfl hrun).elim
    · exact ⟨fun _ ↦ ⟨_, rfl⟩, fun _ ↦ .filtering hdocument hfound hrun⟩
    · constructor
      · intro hfails
        cases hfails with
        | reading hdocument' => cases hdocument.symm.trans hdocument'
        | loading hsettings => cases hfound.symm.trans hsettings
        | filtering hdocument' hsettings hrun' =>
          cases hdocument.symm.trans hdocument'
          cases hfound.symm.trans hsettings
          cases hrun.symm.trans hrun'
      · rintro ⟨failure, hfailure⟩
        cases hfailure

end Process

end Processing

end Weave
