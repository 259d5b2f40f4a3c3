import Weave.CommandLine.Invocation
import Weave.Proofs.Idle

/-!
# Steps of an invocation

An invocation looks at its machine to prepare a pipeline and a document, passes the document through
the pipeline, and writes or prints what comes of it. What only looks at the machine changes nothing,
and passing a document for which no process is started does not either.

## Main definitions

* `Weave.Invocation.outcome`: what a step comes to.
* `Weave.Invocation.IsLook`, `Weave.Invocation.seen`: steps that only look, and what they see.
* `Weave.Invocation.prepare`, `Weave.Invocation.prepareFilter`: pipelines with their documents.
* `Weave.Invocation.Idles`: no process is started for what has been prepared.
* `Weave.Subcommand.isUnexecuted`: blocks are not run.

## Main results

* `Weave.Invocation.process_idle`: what is processed without a process changes nothing.
* `Weave.Invocation.parse_eq`, `Weave.Invocation.filter_eq`, `Weave.Invocation.render_eq`: the
  subcommands as preparing, passing and delivering.
-/

namespace Weave

/-! ### Machines with other files -/

namespace Machine

/-- The machine with other files. -/
def withTree (machine : Machine) (tree : FileTree) : Machine :=
  machine.withKernel { machine.kernel with tree }

variable (machine : Machine) (tree : FileTree)

@[simp] theorem tree_withTree : (machine.withTree tree).kernel.tree = tree := rfl

@[simp] theorem dir_withTree : (machine.withTree tree).dir = machine.dir := rfl

end Machine

namespace Invocation

variable {α β : Type} (tools : Toolkit)

/-! ### Outcomes -/

/-- What a step that starts at a console comes to, and the console that it leaves. -/
def outcome (step : Invocation α) (console : Console) : Except Failure α × Console :=
  StateT.run (ExceptT.run step) console

/-- A step followed by another one: the second one starts where the first one ended, unless that
failed. -/
theorem outcome_bind (step : Invocation α) (next : α → Invocation β) (console : Console) :
    (step >>= next).outcome console =
      match step.outcome console with
      | (.ok a, later) => (next a).outcome later
      | (.error failure, later) => (.error failure, later) := by
  unfold outcome ExceptT.run StateT.run
  simp only [bind, ExceptT.bind, ExceptT.mk, StateT.bind, ExceptT.bindCont]
  cases step console with
  | mk result later => cases result <;> rfl

/-- Writing a file puts it into the tree of the machine. -/
theorem outcome_writeFile (path text : Text) (console : Console) :
    (writeFile path text).outcome console =
      match console.machine.kernel.tree.write console.machine.dir path (Utf8.encode text) with
      | .ok tree => (.ok (), { console with machine := console.machine.withTree tree })
      | .error fault => (.error (.unwritable fault), console) := by
  have hfiles : files.outcome console = (.ok console.machine.kernel.tree, console) := rfl
  have hdir : dir.outcome console = (.ok console.machine.dir, console) := rfl
  rw [writeFile, outcome_bind, hfiles]
  dsimp only
  rw [outcome_bind, hdir]
  dsimp only
  cases console.machine.kernel.tree.write console.machine.dir path (Utf8.encode text) <;> rfl

/-! ### Steps that look -/

/-- What a step comes to on a machine. -/
def seen (step : Invocation α) (machine : Machine) : Except Failure α :=
  (step.outcome { machine }).1

/-- A step that only looks at the machine: it changes nothing, does not look at the output, and
fails only where something is refused. -/
structure IsLook (step : Invocation α) : Prop where
  outcome_eq : ∀ console, step.outcome console = (step.seen console.machine, console)
  refused : ∀ {machine failure}, step.seen machine = .error failure → ∃ e, failure = .refused e

theorem isLook_pure (a : α) : (pure a : Invocation α).IsLook := ⟨fun _ ↦ rfl, nofun⟩

theorem isLook_throw (e : Error) : (throw (.refused e) : Invocation α).IsLook :=
  ⟨fun _ ↦ rfl, fun h ↦ ⟨e, (Except.error.inj h).symm⟩⟩

theorem isLook_files : files.IsLook := ⟨fun _ ↦ rfl, nofun⟩

theorem isLook_dir : dir.IsLook := ⟨fun _ ↦ rfl, nofun⟩

theorem isLook_accept (answer : Except Error α) : (accept answer).IsLook := by
  cases answer with
  | ok a => exact isLook_pure a
  | error e => exact isLook_throw e

theorem seen_pure (a : α) (machine : Machine) : (pure a : Invocation α).seen machine = .ok a := rfl

theorem seen_files (machine : Machine) : files.seen machine = .ok machine.kernel.tree := rfl

theorem seen_dir (machine : Machine) : dir.seen machine = .ok machine.dir := rfl

/-- What is accepted is what is answered. -/
theorem seen_accept_eq_ok_iff {answer : Except Error α} {machine : Machine} {a : α} :
    (accept answer).seen machine = .ok a ↔ answer = .ok a := by
  cases answer with
  | ok b => simp [accept, seen_pure]
  | error e => exact ⟨nofun, nofun⟩

/-- What is seen by one step after the other. -/
theorem IsLook.seen_bind {step : Invocation α} (h : step.IsLook) (next : α → Invocation β)
    (machine : Machine) :
    (step >>= next).seen machine =
      match step.seen machine with
      | .ok a => (next a).seen machine
      | .error failure => .error failure := by
  rw [seen, outcome_bind, h.outcome_eq]
  cases step.seen machine <;> rfl

theorem IsLook.seen_bind_eq_ok_iff {step : Invocation α} (h : step.IsLook)
    {next : α → Invocation β} {machine : Machine} {b : β} :
    (step >>= next).seen machine = .ok b ↔
      ∃ a, step.seen machine = .ok a ∧ (next a).seen machine = .ok b := by
  rw [h.seen_bind]
  cases step.seen machine <;> simp

theorem IsLook.bind {step : Invocation α} {next : α → Invocation β} (h : step.IsLook)
    (hnext : ∀ a, (next a).IsLook) : (step >>= next).IsLook := by
  constructor
  · intro console
    rw [h.seen_bind, outcome_bind, h.outcome_eq]
    cases step.seen console.machine with
    | error failure => rfl
    | ok a => exact (hnext a).outcome_eq console
  · intro machine failure hfailure
    rw [h.seen_bind] at hfailure
    cases hseen : step.seen machine with
    | error cause =>
      rw [hseen] at hfailure
      cases hfailure
      exact h.refused hseen
    | ok a =>
      rw [hseen] at hfailure
      exact (hnext a).refused hfailure

theorem isLook_readInput (path : Text) : (readInput path).IsLook := by
  refine isLook_files.bind fun tree ↦ isLook_dir.bind fun place ↦ ?_
  cases tree.readText place path with
  | ok text => exact isLook_pure text
  | error fault => exact isLook_throw _

theorem isLook_documentDir (input : Text) : (documentDir input).IsLook :=
  isLook_files.bind fun _ ↦ isLook_dir.bind fun _ ↦ isLook_pure _

theorem isLook_settings (commandLine : CommandLine) (directory : Text) :
    (settings tools commandLine directory).IsLook := by
  unfold settings
  cases commandLine.config with
  | some path => exact isLook_files.bind fun _ ↦ isLook_dir.bind fun _ ↦ isLook_accept _
  | none =>
    exact isLook_files.bind fun _ ↦ isLook_dir.bind fun _ ↦ (isLook_accept _).bind fun _ ↦
      isLook_pure _

theorem isLook_workingDir : workingDir.IsLook := isLook_dir.bind fun _ ↦ isLook_pure _

/-- The document that is read is the text of the file. -/
theorem seen_readInput_eq_ok_iff {path document : Text} {machine : Machine} :
    (readInput path).seen machine = .ok document ↔
      machine.kernel.tree.readText machine.dir path = .ok document := by
  simp only [readInput, isLook_files.seen_bind_eq_ok_iff, isLook_dir.seen_bind_eq_ok_iff,
    seen_files, seen_dir, Except.ok.injEq, exists_eq_left']
  cases machine.kernel.tree.readText machine.dir path with
  | ok text => simp [seen_pure]
  | error fault => exact ⟨nofun, nofun⟩

/-! ### Preparing and passing -/

/-- The standard pipeline for the document at a path, and the document. -/
def prepare (commandLine : CommandLine) (options : RunOptions) (input : Text)
    (workspace : Option Text) : Invocation (Pipeline Child × Text) := do
  let document ← readInput input
  let directory ← documentDir input
  let settings ← settings tools commandLine directory
  return (.withWorkspace options settings directory (workspace.getD directory), document)

/-- The pipeline of one filter for the document at a path, and the document. -/
def prepareFilter (commandLine : CommandLine) (kind : SingleFilter) (input : Text) :
    Invocation (Pipeline Child × Text) := do
  let filter ← filterFor tools commandLine input kind
  let document ← readInput input
  return ({ filters := [filter], verbose := commandLine.verbose }, document)

/-- The standard pipeline that runs the blocks of a document in the working directory, and the
document. -/
def prepareParse (commandLine : CommandLine) (options : RunOptions) (input : Text) :
    Invocation (Pipeline Child × Text) := do
  prepare tools commandLine options input (some (← workingDir))

/-- Passes a document that has been prepared through its pipeline. -/
def process (prepared : Invocation (Pipeline Child × Text)) : Invocation Text := do
  let (pipeline, document) ← prepared
  pass pipeline document

section Subcommands

variable (commandLine : CommandLine) (options : RunOptions) (input : Text)

theorem render_eq (workspace : Option Text) :
    render tools commandLine options input workspace =
      process (prepare tools commandLine options input workspace) := by
  simp [render, process, prepare]

theorem parse_eq (output : Option Text) (beside noExec collapse : Bool) :
    parse tools commandLine input output beside noExec collapse =
      process (prepareParse tools commandLine (runOptions commandLine noExec collapse) input) >>=
        deliver (if beside then some (builtPath input) else output) := by
  simp [parse, render_eq, process, prepareParse]

theorem filter_eq (kind : SingleFilter) (output : Option Text) :
    filter tools commandLine kind input output =
      process (prepareFilter tools commandLine kind input) >>= deliver output := by
  simp [filter, process, prepareFilter]

end Subcommands

section Look

variable (commandLine : CommandLine) (options : RunOptions) (input : Text)

theorem isLook_prepare (workspace : Option Text) :
    (prepare tools commandLine options input workspace).IsLook :=
  (isLook_readInput input).bind fun _ ↦ (isLook_documentDir input).bind fun directory ↦
    (isLook_settings tools commandLine directory).bind fun _ ↦ isLook_pure _

theorem isLook_prepareParse : (prepareParse tools commandLine options input).IsLook :=
  isLook_workingDir.bind fun _ ↦ isLook_prepare tools commandLine options input _

theorem isLook_filterFor (kind : SingleFilter) :
    (filterFor tools commandLine input kind).IsLook := by
  cases kind with
  | execute noExec =>
    exact (isLook_documentDir input).bind fun directory ↦
      (isLook_settings tools commandLine directory).bind fun _ ↦ isLook_workingDir.bind fun _ ↦
        isLook_pure _
  | inclusion => exact (isLook_documentDir input).bind fun _ ↦ isLook_pure _
  | comment => exact isLook_pure _
  | contents => exact isLook_pure _
  | blankLines => exact isLook_pure _

theorem isLook_prepareFilter (kind : SingleFilter) :
    (prepareFilter tools commandLine kind input).IsLook :=
  (isLook_filterFor tools commandLine input kind).bind fun _ ↦ (isLook_readInput input).bind fun _ ↦
    isLook_pure _

end Look

/-- No process is started for what has been prepared. -/
def Idles (prepared : Invocation (Pipeline Child × Text)) (machine : Machine) : Prop :=
  ∀ pipeline document, prepared.seen machine = .ok (pipeline, document) →
    pipeline.IsIdle Machine.host machine document

/-- What passing a document through a pipeline comes to. -/
theorem outcome_pass (pipeline : Pipeline Child) (document : Text) (console : Console) :
    (pass pipeline document).outcome console =
      match (pipeline.run Machine.host document).outcome { world := console.machine } with
      | (.ok (result, _), scene) =>
        (result.mapError .refused, { console with machine := scene.world })
      | (.error reason, _) => (.error (.halted reason), console) := by
  have hmachine : machine.outcome console = (.ok console.machine, console) := rfl
  rw [pass, outcome_bind, hmachine]
  dsimp only
  rw [Task.run]
  rcases (pipeline.run Machine.host document).outcome { world := console.machine } with
    ⟨reason | ⟨result | result, next⟩, scene⟩ <;> rfl

/-- Passing a document for which no process is started changes nothing. -/
theorem pass_idle {pipeline : Pipeline Child} {document : Text} {console : Console}
    (h : pipeline.IsIdle Machine.host console.machine document) :
    (pass pipeline document).outcome console =
      ((pass pipeline document).seen console.machine, console) := by
  rw [seen, outcome_pass, outcome_pass]
  dsimp only
  rcases hrun : (pipeline.run Machine.host document).outcome { world := console.machine } with
    ⟨reason | answered, scene⟩
  · rfl
  · have hworld : scene.world = console.machine := h.outcome.result rfl hrun
    dsimp only
    rw [hworld]

/-- **Processing without processes.** Processing a document for which no process is started changes
nothing, and comes to the same whatever has been printed. -/
theorem process_idle {prepared : Invocation (Pipeline Child × Text)} (hlook : prepared.IsLook)
    {console : Console} (h : Idles prepared console.machine) :
    (process prepared).outcome console = ((process prepared).seen console.machine, console) := by
  rw [process, hlook.seen_bind, outcome_bind, hlook.outcome_eq]
  cases hseen : prepared.seen console.machine with
  | error failure => rfl
  | ok found => exact pass_idle (h found.1 found.2 hseen)

/-! ### Blocks that are not run -/

end Invocation

/-- The blocks of documents are not run. -/
def Subcommand.isUnexecuted : Subcommand → Bool
  | .parse _ _ _ noExec _ => noExec
  | .make _ _ noExec _ _ => noExec
  | .filter (.execute noExec) _ _ => noExec
  | .filter .. => true

namespace Invocation

variable {tools : Toolkit} {commandLine : CommandLine} {options : RunOptions} {input : Text}
  {machine : Machine}

theorem idles_prepare (h : options.noExec = true) (workspace : Option Text) :
    Idles (prepare tools commandLine options input workspace) machine := by
  intro pipeline document hseen
  obtain ⟨text, -, hseen⟩ := (isLook_readInput input).seen_bind_eq_ok_iff.mp hseen
  obtain ⟨directory, -, hseen⟩ := (isLook_documentDir input).seen_bind_eq_ok_iff.mp hseen
  obtain ⟨settings, -, hseen⟩ := (isLook_settings tools commandLine _).seen_bind_eq_ok_iff.mp hseen
  cases hseen
  exact Pipeline.isIdle_withWorkspace h settings directory _ document

theorem idles_prepareParse (h : options.noExec = true) :
    Idles (prepareParse tools commandLine options input) machine := by
  intro pipeline document hseen
  obtain ⟨workspace, -, hseen⟩ := isLook_workingDir.seen_bind_eq_ok_iff.mp hseen
  exact idles_prepare h _ pipeline document hseen

theorem idles_prepareFilter {kind : SingleFilter} {output : Option Text}
    (h : (Subcommand.filter kind input output).isUnexecuted = true) :
    Idles (prepareFilter tools commandLine kind input) machine := by
  intro pipeline document hseen
  obtain ⟨filter, hfilter, hseen⟩ :=
    (isLook_filterFor tools commandLine input kind).seen_bind_eq_ok_iff.mp hseen
  obtain ⟨text, -, hseen⟩ := (isLook_readInput input).seen_bind_eq_ok_iff.mp hseen
  cases hseen
  refine Pipeline.isIdle_single ?_
  cases kind with
  | comment => cases hfilter; trivial
  | contents => cases hfilter; trivial
  | blankLines => cases hfilter; trivial
  | inclusion =>
    obtain ⟨base, -, hfilter⟩ := (isLook_documentDir input).seen_bind_eq_ok_iff.mp hfilter
    cases hfilter
    trivial
  | execute noExec =>
    obtain ⟨directory, -, hfilter⟩ := (isLook_documentDir input).seen_bind_eq_ok_iff.mp hfilter
    obtain ⟨settings, -, hfilter⟩ :=
      (isLook_settings tools commandLine _).seen_bind_eq_ok_iff.mp hfilter
    obtain ⟨workspace, -, hfilter⟩ := isLook_workingDir.seen_bind_eq_ok_iff.mp hfilter
    cases hfilter
    exact ⟨fun _ hentry ↦ (CodeRunner.mem_entries_new hentry).1, .inl h⟩

/-! ### Reading what is processed -/

/-- What has been parsed has been read. -/
theorem exists_read_of_prepareParse {text : Text}
    (h : (process (prepareParse tools commandLine options input)).seen machine = .ok text) :
    ∃ content, machine.kernel.tree.read machine.dir input = .ok content := by
  obtain ⟨found, hfound, -⟩ :=
    (isLook_prepareParse tools commandLine options input).seen_bind_eq_ok_iff.mp h
  obtain ⟨workspace, -, hfound⟩ := isLook_workingDir.seen_bind_eq_ok_iff.mp hfound
  obtain ⟨document, hdocument, -⟩ := (isLook_readInput input).seen_bind_eq_ok_iff.mp hfound
  have htext := seen_readInput_eq_ok_iff.mp hdocument
  cases hread : machine.kernel.tree.read machine.dir input with
  | ok content => exact ⟨content, rfl⟩
  | error fault =>
    rw [FileTree.readText, hread] at htext
    cases htext

/-! ### Running -/

/-- The failure that a step ends with. -/
def failure? : Except Failure Unit → Option Failure
  | .ok () => none
  | .error failure => some failure

/-- A command line with a subcommand does what that says. -/
theorem run_eq {colored : Bool} {args : List Text} {subcommand : Subcommand}
    (hparse : tools.commandLine args = .ok commandLine)
    (hsubcommand : commandLine.subcommand = some subcommand) (machine : Machine) :
    run colored args machine tools =
      let done := (perform tools commandLine colored subcommand).outcome { machine }
      ({ status := (failure? done.1).elim 0 Failure.status, output := done.2.output,
         failure := failure? done.1 }, done.2.machine) := by
  rw [run, hparse]
  dsimp only
  rw [hsubcommand]
  dsimp only
  unfold outcome
  rcases StateT.run (ExceptT.run (perform tools commandLine colored subcommand)) { machine } with
    ⟨failure | _, console⟩ <;> rfl

end Invocation

end Weave
