import Weave.Proofs.Naming
import Weave.Proofs.SessionUse

/-!
# The interpreters that blocks are dispatched to

A runner holds two tables, the profiles and the interpreters, which are made from the same settings.
The tag of a block is looked for among the profiles, and the name that is found among the
interpreters. Whatever is run, both tables keep the same names, and every interpreter its profile,
so that the second search succeeds whenever the first one does. Hence no block is refused whose tag
is the name or an alias of a profile or a tag of the shell.

## Main definitions

* `Weave.Settings.Knows`: something runs blocks with a tag.
* `Weave.CodeRunner.Aligned`: the interpreters are those of the profiles.
* `Weave.CodeRunner.dispatchTo`, `Weave.CodeRunner.dispatchToShell`, `Weave.CodeRunner.refuse`: what
  becomes of a block.
* `Weave.Interpreter.executeOr`: running a block in a session that may be missing.

## Main results

* `Weave.Interpreter.executeOr_eq`: no session is missing that has been started.
* `Weave.CodeRunner.Reaches.preserves`: what blocks and stops preserve holds in every state.
* `Weave.CodeRunner.Reaches.aligned`: the tables stay aligned.
* `Weave.CodeRunner.Reaches.dispatches`: what becomes of blocks, by their tags.
-/

namespace Weave

variable {ω σ α : Type}

/-! ### Interpreters -/

namespace Interpreter

variable (host : Host ω σ) (interpreter : Interpreter σ)

/-- An interpreter that is stopped loses its session only. -/
theorem stop_stopped :
    Task.Ensures (fun _ ↦ True) (interpreter.stop host) (fun next _ ↦ next = interpreter.stopped)
      (fun _ _ ↦ True) := by
  intro scene _
  rcases hrun : (interpreter.stop host).outcome scene with ⟨result, later⟩
  cases result with
  | ok next => exact ((interpreter.stop_exits host).of_outcome hrun).eq
  | error reason => trivial

/-- Runs a block, with an answer of its own (`missing`) for an interpreter that has no session when
one has been started. -/
def executeOr (missing : Interpreter σ → Task ω (Except Error Text × Interpreter σ))
    (body dir : Text) : Task ω (Except Error Text × Interpreter σ) := do
  let command := interpreter.profile.commandLine dir body
  match ← interpreter.ensureSession host with
  | (.error e, interpreter) => return (.error e, interpreter)
  | (.ok _, interpreter) =>
    let (result, interpreter) ←
      match interpreter.session with
      | none => missing interpreter
      | some session => do
        let (result, session) ←
          session.request host interpreter.name interpreter.profile command
        pure (result, { interpreter with session := some session })
    match result with
    | .ok answer => return (.ok answer, interpreter)
    | .error e =>
      Task.emit ⟨.warn, "request failed, stopping session".toList,
        [("interpreter", interpreter.name), ("error", e.message)]⟩
      return (.error e, ← interpreter.stop host)

/-- No session is missing that has been started. -/
theorem executeOr_eq (missing : Interpreter σ → Task ω (Except Error Text × Interpreter σ))
    (body dir : Text) :
    interpreter.executeOr host missing body dir = interpreter.execute host body dir := by
  funext scene
  change (interpreter.executeOr host missing body dir).outcome scene =
    (interpreter.execute host body dir).outcome scene
  rw [executeOr, execute, Task.outcome_bind, Task.outcome_bind]
  rcases hensure : (interpreter.ensureSession host).outcome scene with ⟨ensured, mid⟩
  cases ensured with
  | error reason => rfl
  | ok ensured =>
    obtain ⟨result, next⟩ := ensured
    cases result with
    | error e => rfl
    | ok session =>
      obtain rfl := ((interpreter.ensureSession_exits host).of_outcome hensure).eq_of_ok
      dsimp only
      rw [Task.outcome_bind, Task.outcome_bind]
      rcases (session.request host interpreter.name interpreter.profile
        (interpreter.profile.commandLine dir body)).outcome mid with ⟨requested, later⟩
      cases requested <;> rfl

end Interpreter

/-! ### Tables -/

namespace Registry

/-- A value is found under the names of a registry, and under no others. -/
theorem isSome_get?_iff {r : Registry α} {name : Text} :
    (r.get? name).isSome ↔ name ∈ r.names := by
  simp [get?, names, List.lookup_isSome_iff]

end Registry

/-- Something runs blocks with the tag: it is the name or an alias of a profile, or a tag of the
shell. -/
def Settings.Knows (settings : Settings) (tag : Text) : Prop :=
  tag ∈ settings.profiles.names ∨ (∃ name, settings.profiles.HasAlias name tag) ∨
    tag ∈ Language.shellTags

theorem Settings.knows_iff {settings : Settings} {tag : Text} :
    settings.Knows tag ↔
      (∃ name, Language.Answers settings.profiles name tag) ∨ tag ∈ Language.shellTags := by
  simp only [Knows, Language.answers_iff, exists_or, exists_eq_right, or_assoc]

namespace Language

/-- The name of an interpreter is that of a profile. -/
theorem mem_names_of_resolve {profiles : Registry Profile} {tag name : Text}
    (h : resolve profiles tag = interpreter name) : name ∈ profiles.names := by
  rw [resolve] at h
  split at h
  · rename_i first profile hfound
    cases h
    exact List.mem_map_of_mem (List.mem_of_find?_eq_some hfound)
  · split at h <;> cases h

/-- A tag is not known if no profile answers to it and it is no tag of the shell. -/
theorem resolve_eq_unsupported_iff {profiles : Registry Profile} {tag other : Text} :
    resolve profiles tag = unsupported other ↔
      other = tag ∧ (∀ name, ¬Answers profiles name tag) ∧ tag ∉ shellTags := by
  rw [resolve]
  split
  · rename_i first profile hfound
    have hanswers := List.find?_some hfound
    refine ⟨fun h ↦ (by cases h), fun h ↦ absurd ?_ (h.2.1 first)⟩
    exact ⟨profile, List.mem_of_find?_eq_some hfound, hanswers⟩
  · rename_i hnone
    have hanswers (name : Text) : ¬Answers profiles name tag := by
      rintro ⟨profile, hmem, hanswers⟩
      exact absurd hanswers (List.find?_eq_none.mp hnone (name, profile) hmem)
    split
    · exact ⟨fun h ↦ (by cases h), fun h ↦ absurd (List.contains_iff_mem.mp ‹_›) h.2.2⟩
    · have hshell : tag ∉ shellTags := mt List.contains_iff_mem.mpr ‹_›
      exact ⟨fun h ↦ ⟨(unsupported.inj h).symm, hanswers, hshell⟩, fun h ↦ by rw [h.1]⟩

end Language

namespace CodeRunner

variable {host : Host ω σ} {runner next : CodeRunner σ} {settings : Settings}

/-- The profiles of a runner are those of its settings, and its interpreters are those of the
profiles: under each name of a profile, and under no other, there is an interpreter which has this
name and this profile. -/
structure Aligned (runner : CodeRunner σ) (settings : Settings) : Prop where
  profiles : runner.profiles = settings.profiles
  names : runner.interpreters.names = runner.profiles.names
  interpreter : ∀ name,
    (runner.interpreters.get? name).map (fun held ↦ (held.name, held.profile)) =
      (runner.profiles.get? name).map (name, ·)

theorem aligned_new (options : RunOptions) (settings : Settings) (workspace : Text) :
    (CodeRunner.new options settings workspace : CodeRunner σ).Aligned settings where
  profiles := rfl
  names := Registry.names_map _ settings.profiles
  interpreter name := by
    have hget := Registry.get?_map_values settings.profiles.entries
      (fun name profile ↦ ({ name, profile } : Interpreter σ)) name
    simp [CodeRunner.new, Registry.map, hget, Function.comp_def]

/-- A block leaves the tables aligned: the interpreter that runs it is put back under its name. -/
theorem Aligned.dispatch (h : runner.Aligned settings) (host : Host ω σ) (block : CodeBlock)
    (dir : Text) :
    Task.Ensures (fun _ ↦ True) (runner.dispatch host block dir)
      (fun (_, next) _ ↦ next.Aligned settings) (fun _ _ ↦ True) := by
  intro scene _
  rcases hrun : (runner.dispatch host block dir).outcome scene with ⟨reason | ⟨result, next⟩, later⟩
  · trivial
  obtain ⟨called, interpreter, last, -, hget, hexecute, rfl⟩ | ⟨-, rfl, -⟩ | ⟨rfl, -⟩ :=
    dispatch_cases hrun
  · obtain ⟨hname, hprofile⟩ := ((interpreter.execute_exits host _ _).of_outcome hexecute).keeps
    refine ⟨h.profiles, (Registry.names_replace _ _ _).trans h.names, fun name ↦ ?_⟩
    rw [← h.interpreter name]
    by_cases hcalled : name = called
    · subst hcalled
      rw [hget, Registry.get?_replace_self last hget, Option.map_some, Option.map_some, hname,
        hprofile]
    · rw [Registry.get?_replace_of_ne hcalled]
  · exact h
  · exact h

theorem stopSessions_stopped (host : Host ω σ) (runner : CodeRunner σ) :
    Task.Ensures (fun _ ↦ True) (runner.stopSessions host) (fun next _ ↦ next = runner.stopped)
      (fun _ _ ↦ True) :=
  (stopEach_of_forall fun _ interpreter _ ↦ interpreter.stop_stopped host).bindResult
    fun entries hentries ↦ .pure fun _ _ ↦ by rw [hentries]; rfl

theorem Aligned.stopped (h : runner.Aligned settings) : runner.stopped.Aligned settings where
  profiles := h.profiles
  names := (Registry.names_map _ runner.interpreters).trans h.names
  interpreter name := by
    rw [get?_stopped, Option.map_map]
    exact h.interpreter name

/-! ### Invariants -/

/-- What is said of a runner is preserved by the blocks that it runs, and when its interpreters are
stopped. -/
structure Preserves (host : Host ω σ) (P : CodeRunner σ → Prop) : Prop where
  dispatch : ∀ runner block dir, P runner →
    Task.Ensures (fun _ ↦ True) (runner.dispatch host block dir) (fun (_, next) _ ↦ P next)
      (fun _ _ ↦ True)
  stopSessions : ∀ runner, P runner →
    Task.Ensures (fun _ ↦ True) (runner.stopSessions host) (fun next _ ↦ P next) (fun _ _ ↦ True)

namespace Preserves

variable {P : CodeRunner σ → Prop} (hpreserves : Preserves host P) (hrunner : P runner)
include hpreserves hrunner

theorem execute (block : CodeBlock) (options : FenceOptions) :
    Task.Ensures (fun _ ↦ True) (runner.execute host block options) (fun (_, next) _ ↦ P next)
      (fun _ _ ↦ True) := by
  refine (hpreserves.dispatch runner block _ hrunner).bindResult fun (result, next) hnext ↦ ?_
  cases result with
  | ok output => exact .pure fun _ _ ↦ hnext
  | error e => exact (Task.Ensures.emit_world (fun _ ↦ True) _).bind fun _ ↦ .pure fun _ _ ↦ hnext

/-- A block is run, or it is shown only. -/
theorem renderBlock (block : CodeBlock) :
    Task.Ensures (fun _ ↦ True) (runner.renderBlock host block) (fun (_, next) _ ↦ P next)
      (fun _ _ ↦ True) := by
  have hwarnings : Task.Ensures (fun _ ↦ True)
      (Task.emitAll (FenceOptions.warnings block.options) : Task ω Unit) (fun _ _ ↦ True)
      (fun _ _ ↦ True) := fun _ _ ↦ trivial
  refine hwarnings.bind fun _ ↦ ?_
  split
  · exact .pure fun _ _ ↦ hrunner
  · exact (hpreserves.execute hrunner block _).bindResult fun (result, next) hnext ↦
      .pure fun _ _ ↦ hnext

theorem renderSegments (segments : List Segment) :
    Task.Ensures (fun _ ↦ True) (runner.renderSegments host segments) (fun (_, next) _ ↦ P next)
      (fun _ _ ↦ True) := by
  induction segments generalizing runner with
  | nil => exact .pure fun _ _ ↦ hrunner
  | cons segment rest ih =>
    cases segment with
    | literal text => exact (ih hrunner).bindResult fun (out, next) hnext ↦ .pure fun _ _ ↦ hnext
    | code block =>
      exact (hpreserves.renderBlock hrunner block).bindResult fun (shown, next) hnext ↦
        (ih hnext).bindResult fun (out, last) hlast ↦ .pure fun _ _ ↦ hlast

theorem run (document : Text) :
    Task.Ensures (fun _ ↦ True) (runner.run host document) (fun (_, next) _ ↦ P next)
      (fun _ _ ↦ True) := by
  have hwarnings : Task.Ensures (fun _ ↦ True)
      (Task.emitAll (Segment.warnings document) : Task ω Unit) (fun _ _ ↦ True)
      (fun _ _ ↦ True) := fun _ _ ↦ trivial
  exact (hpreserves.renderSegments hrunner _).bindResult fun (out, next) hnext ↦
    hwarnings.bind fun _ ↦ (hpreserves.stopSessions next hnext).bindResult fun last hlast ↦
      .pure fun _ _ ↦ hlast

end Preserves

variable {options : RunOptions} {workspace : Text} {first scene later : Scene ω}

/-- What is said of a new runner, and preserved by its blocks and when its interpreters are stopped,
holds in every state that is reached, whether blocks are run or only shown. -/
theorem Reaches.preserves {P : CodeRunner σ → Prop}
    (h : Reaches host options settings workspace first runner scene)
    (hnew : P (.new options settings workspace)) (hpreserves : Preserves host P) : P runner := by
  induction h with
  | new => exact hnew
  | renderBlock block _ hrun ih => exact (hpreserves.renderBlock ih block).result trivial hrun
  | run document _ hrun ih => exact (hpreserves.run ih document).result trivial hrun
  | stopSessions _ hrun ih => exact (hpreserves.stopSessions _ ih).result trivial hrun

theorem preserves_aligned (host : Host ω σ) (settings : Settings) :
    Preserves host fun runner ↦ runner.Aligned settings where
  dispatch _ block dir haligned := haligned.dispatch host block dir
  stopSessions runner haligned := (runner.stopSessions_stopped host).weaken (fun _ h ↦ h)
    (fun _ _ hnext ↦ hnext ▸ haligned.stopped) fun _ _ h ↦ h

/-- The tables stay aligned. -/
theorem Reaches.aligned (h : Reaches host options settings workspace first runner scene) :
    runner.Aligned settings :=
  h.preserves (aligned_new options settings workspace) (preserves_aligned host settings)

/-- The states in the course of a run are reached as well. -/
theorem renderSegments_reaches (segments : List Segment) :
    Task.Ensures (Reaches host options settings workspace first runner)
      (runner.renderSegments host segments)
      (fun (_, next) later ↦ Reaches host options settings workspace first next later)
      (fun _ _ ↦ True) := by
  induction segments generalizing runner with
  | nil => exact .pure fun _ h ↦ h
  | cons segment rest ih =>
    cases segment with
    | literal text => exact ih.bind fun _ ↦ .pure fun _ h ↦ h
    | code block =>
      have hblock : Task.Ensures (Reaches host options settings workspace first runner)
          (runner.renderBlock host block)
          (fun (_, next) later ↦ Reaches host options settings workspace first next later)
          (fun _ _ ↦ True) := by
        intro scene h
        rcases hrun : (runner.renderBlock host block).outcome scene with ⟨_ | _, _⟩
        · trivial
        · exact .renderBlock block h hrun
      exact hblock.bind fun _ ↦ ih.bind fun _ ↦ .pure fun _ h ↦ h

/-! ### What becomes of blocks -/

/-- Runs a block in an interpreter, which is put back under its name. -/
def dispatchTo (host : Host ω σ) (runner : CodeRunner σ) (name : Text)
    (interpreter : Interpreter σ) (block : CodeBlock) (dir : Text) :
    Task ω (Except Error Text × CodeRunner σ) := do
  let (result, interpreter) ← interpreter.execute host block.body dir
  return (result, { runner with interpreters := runner.interpreters.replace name interpreter })

/-- Runs a block in the shell. -/
def dispatchToShell (host : Host ω σ) (runner : CodeRunner σ) (block : CodeBlock) (dir : Text) :
    Task ω (Except Error Text × CodeRunner σ) :=
  return (← ShellCommand.execute host runner.shell block.body dir, runner)

/-- Runs nothing, but gives a block the result of one in a language that is not known. -/
def refuse (runner : CodeRunner σ) (block : CodeBlock) :
    Task ω (Except Error Text × CodeRunner σ) := do
  Task.emit ⟨.warn, "no executor for code block".toList, [("language", block.language)]⟩
  return (.ok Language.unsupportedResult, runner)

namespace Aligned

variable (h : runner.Aligned settings)
include h

/-- The interpreter is found whose name is. -/
theorem exists_interpreter {tag name : Text} (hlanguage : runner.language tag = .interpreter name) :
    ∃ interpreter, runner.interpreters.get? name = some interpreter ∧ interpreter.name = name ∧
      settings.profiles.get? name = some interpreter.profile := by
  have hsome : (runner.interpreters.get? name).isSome := by
    rw [Registry.isSome_get?_iff, h.names]
    exact Language.mem_names_of_resolve hlanguage
  obtain ⟨interpreter, hget⟩ := Option.isSome_iff_exists.mp hsome
  have hinterpreter := h.interpreter name
  rw [hget, h.profiles] at hinterpreter
  obtain ⟨profile, hprofile, heq⟩ := Option.map_eq_some_iff.mp hinterpreter.symm
  obtain ⟨hname, rfl⟩ := Prod.mk.inj heq
  exact ⟨interpreter, hget, hname.symm, hprofile⟩

theorem language_eq_unsupported_iff {tag other : Text} :
    runner.language tag = .unsupported other ↔ other = tag ∧ ¬settings.Knows tag := by
  rw [language, h.profiles, Language.resolve_eq_unsupported_iff, Settings.knows_iff, not_or,
    not_exists]

/-- A block with a tag that is known is run by an interpreter or by the shell. -/
theorem dispatch_of_knows (host : Host ω σ) {block : CodeBlock}
    (hknows : settings.Knows block.language) (dir : Text) :
    (∃ name interpreter, runner.language block.language = .interpreter name ∧
      runner.interpreters.get? name = some interpreter ∧
      runner.dispatch host block dir = runner.dispatchTo host name interpreter block dir) ∨
    (runner.language block.language = .shell ∧
      runner.dispatch host block dir = runner.dispatchToShell host block dir) := by
  cases hlanguage : runner.language block.language with
  | shell => exact .inr ⟨rfl, by rw [CodeRunner.dispatch, hlanguage]; rfl⟩
  | interpreter name =>
    obtain ⟨interpreter, hget, -⟩ := h.exists_interpreter hlanguage
    refine .inl ⟨name, interpreter, rfl, hget, ?_⟩
    rw [CodeRunner.dispatch, hlanguage]
    dsimp only
    rw [hget]
    rfl
  | unsupported tag => exact absurd hknows (h.language_eq_unsupported_iff.mp hlanguage).2

/-- A block with a tag that is not known is refused. -/
theorem dispatch_of_not_knows (host : Host ω σ) {block : CodeBlock}
    (hknows : ¬settings.Knows block.language) (dir : Text) :
    runner.dispatch host block dir = runner.refuse block := by
  rw [CodeRunner.dispatch, h.language_eq_unsupported_iff.mpr ⟨rfl, hknows⟩]
  rfl

end Aligned

/-- **Blocks find their interpreters.** In every state that is reached, within a run as well,
whether blocks are run or only shown and whatever the processes do: there is an interpreter under
each name of a profile and under no other, and it has this name and this profile. A tag that leads
to the name of an interpreter leads to this interpreter. A block is run, by an interpreter or by the
shell, if its tag is the name or an alias of a profile or a tag of the shell, and is refused
otherwise. No interpreter that has started a session finds it missing. -/
theorem Reaches.dispatches (h : Reaches host options settings workspace first runner scene) :
    runner.Aligned settings ∧
    (∀ segments out next later,
      (runner.renderSegments host segments).outcome scene = (.ok (out, next), later) →
        Reaches host options settings workspace first next later) ∧
    (∀ tag name, runner.language tag = .interpreter name →
      ∃ interpreter, runner.interpreters.get? name = some interpreter ∧ interpreter.name = name ∧
        settings.profiles.get? name = some interpreter.profile) ∧
    (∀ block dir,
      (settings.Knows block.language →
        (∃ name interpreter, runner.language block.language = .interpreter name ∧
          runner.interpreters.get? name = some interpreter ∧
          runner.dispatch host block dir = runner.dispatchTo host name interpreter block dir) ∨
        (runner.language block.language = .shell ∧
          runner.dispatch host block dir = runner.dispatchToShell host block dir)) ∧
      (¬settings.Knows block.language → runner.dispatch host block dir = runner.refuse block)) ∧
    ∀ (interpreter : Interpreter σ) missing body dir,
      interpreter.execute host body dir = interpreter.executeOr host missing body dir := by
  have haligned := h.aligned
  refine ⟨haligned, fun segments out next later hrun ↦ ?_,
    fun tag name ↦ haligned.exists_interpreter, fun block dir ↦ ⟨?_, ?_⟩,
    fun interpreter missing body dir ↦ (interpreter.executeOr_eq host missing body dir).symm⟩
  · exact (renderSegments_reaches segments).result h hrun
  · exact fun hknows ↦ haligned.dispatch_of_knows host hknows dir
  · exact fun hknows ↦ haligned.dispatch_of_not_knows host hknows dir

/-- Settings with one interpreter beside the built-in one. -/
def greeting : Settings := { interpreters := ⟨[("repl".toList, Greeter.profile)]⟩ }

/-- When a greeting has been run, blocks for its interpreter find it, those in a language without a
profile are refused, and the shell is still the shell. -/
theorem dispatches_hello : ∃ runner scene interpreter,
    Reaches (Greeter.responder []).host {} greeting ['/'] { world := () } runner scene ∧
    runner.interpreters.get? "repl".toList = some interpreter ∧
    interpreter.profile = Greeter.profile ∧
    ∀ options body dir,
      runner.dispatch (Greeter.responder []).host ⟨"repl".toList, options, body⟩ dir =
        runner.dispatchTo (Greeter.responder []).host "repl".toList interpreter
          ⟨"repl".toList, options, body⟩ dir ∧
      runner.dispatch (Greeter.responder []).host ⟨"sh".toList, options, body⟩ dir =
        runner.dispatchToShell (Greeter.responder []).host ⟨"sh".toList, options, body⟩ dir ∧
      runner.dispatch (Greeter.responder []).host ⟨"python".toList, options, body⟩ dir =
        runner.refuse ⟨"python".toList, options, body⟩ := by
  obtain ⟨out, runner, scene, hrun⟩ := exists_run_of_halt?
    (by decide +kernel : halt? (Greeter.responder []).host Greeter.profile = none)
  have hreaches : Reaches (Greeter.responder []).host {} greeting ['/'] { world := () } runner
      scene := .run hello .new hrun
  obtain ⟨haligned, -, hfound, hblocks, -⟩ := hreaches.dispatches
  have hrepl : runner.language "repl".toList = .interpreter "repl".toList := by
    rw [language, haligned.profiles]
    decide
  have hshell : runner.language "sh".toList = .shell := by
    rw [language, haligned.profiles]
    decide
  have hpython : runner.language "python".toList = .unsupported "python".toList := by
    rw [language, haligned.profiles]
    decide
  obtain ⟨interpreter, hget, -, hprofile⟩ := hfound _ _ hrepl
  refine ⟨runner, scene, interpreter, hreaches, hget, (Option.some.inj hprofile).symm,
    fun options body dir ↦ ⟨?_, ?_, ?_⟩⟩
  · have hknows : greeting.Knows "repl".toList := .inl (by decide)
    obtain ⟨name, other, hlanguage, hother, heq⟩ | ⟨hlanguage, -⟩ :=
      (hblocks ⟨"repl".toList, options, body⟩ dir).1 hknows
    · cases hrepl.symm.trans hlanguage
      cases hget.symm.trans hother
      exact heq
    · cases hrepl.symm.trans hlanguage
  · have hknows : greeting.Knows "sh".toList := .inr (.inr (by decide))
    obtain ⟨name, other, hlanguage, -⟩ | ⟨-, heq⟩ :=
      (hblocks ⟨"sh".toList, options, body⟩ dir).1 hknows
    · cases hshell.symm.trans hlanguage
    · exact heq
  · exact (hblocks _ dir).2 (haligned.language_eq_unsupported_iff.mp hpython).2

end CodeRunner

end Weave
