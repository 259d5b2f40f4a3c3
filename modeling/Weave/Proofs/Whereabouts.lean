import Mathlib.Data.List.Forall2
import Weave.Proofs.CommandEffect
import Weave.Proofs.Ledger
import Weave.Proofs.Rendering

/-!
# Where statements are run

An interpreter that is told to change its directory does so from the directory that it is in, if the
directory is there, and goes on with the statements in any case. So the statements of a block run in
the directory of the block if the workspace is given from the root and the directory is there.
Otherwise they run in a directory that the blocks before have chosen. A command of the shell is only
run in its own directory.

## Main definitions

* `Weave.CodeRunner.dirOf`: the directory of a block.
* `Weave.Visit`: where statements were run.
* `Weave.Roamer`: an interpreter that keeps a directory.
* `Weave.Roamer.Heeds`: an interpreter that reads the lines of a profile.
* `Weave.Roamer.Trail`: the directories that it goes to, block by block.
* `Weave.CodeRunner.Step.Placed`: a block whose statements ran in its own directory.

## Main results

* `Weave.Roamer.execute_visits`: where the statements of one block are run.
* `Weave.Roamer.render_trail`: where those of all blocks are run.
* `Weave.Rover.dirs_astray`: a missing directory and a relative workspace lead astray.
-/

namespace Weave

variable {ω μ : Type}

/-! ### Directories of blocks -/

namespace CodeRunner

variable {σ : Type}

/-- The directory of a block: its own path taken from the workspace, which is taken from `home`. -/
def dirOf (runner : CodeRunner σ) (home : Text) (block : CodeBlock) : Text :=
  let dir := Path.join home runner.workspace
  match block.fenceOptions.path with
  | none => dir
  | some path => Path.join dir path

theorem join_workingDir (runner : CodeRunner σ) (home : Text) (block : CodeBlock) :
    Path.join home (runner.workingDir block.fenceOptions) = runner.dirOf home block := by
  unfold workingDir dirOf
  cases block.fenceOptions.path with
  | none => rfl
  | some path => exact (Path.join_assoc home runner.workspace path).symm

/-- A block has a directory given from the root if the workspace or its own path is. -/
theorem isAbsolute_workingDir {runner : CodeRunner σ} {options : FenceOptions}
    (h : Path.isAbsolute runner.workspace = true ∨ options.path.any Path.isAbsolute = true) :
    Path.isAbsolute (runner.workingDir options) = true := by
  unfold workingDir
  cases hpath : options.path with
  | none => exact h.resolve_right (by rw [hpath]; exact Bool.false_ne_true)
  | some path =>
    rcases h with h | h
    · exact Path.isAbsolute_join h path
    · rw [hpath] at h
      exact (congrArg Path.isAbsolute (Path.join_of_isAbsolute h)).trans h

end CodeRunner

/-! ### Visits -/

/-- Where some statements were run. -/
structure Visit where
  /-- The directory that the process was in. -/
  before : Text
  /-- The directory that it was told to change to. -/
  path : Text
  /-- Whether that one was there. -/
  found : Bool
  statements : List Text
  /-- The directory that the statements left the process in. -/
  after : Text
  deriving Repr, DecidableEq

namespace Visit

/-- The directory that the statements were run in. -/
def dir (visit : Visit) : Text :=
  if visit.found then Path.join visit.before visit.path else visit.before

/-- The statements were run in a directory. -/
def Proper (dir : Text) (visit : Visit) : Prop :=
  visit.found = true ∧ visit.dir = dir

/-- A process that finds the directory runs the statements there. -/
theorem proper_of_found {visit : Visit} (h : visit.found = true) :
    visit.Proper (Path.join visit.before visit.path) :=
  ⟨h, if_pos h⟩

/-- A directory that is given from the root and that is there is the right one. -/
theorem proper_iff_found {home : Text} {visit : Visit} (h : Path.isAbsolute visit.path = true) :
    visit.Proper (Path.join home visit.path) ↔ visit.found = true := by
  refine ⟨And.left, fun hfound ↦ ⟨hfound, ?_⟩⟩
  rw [dir, if_pos hfound, Path.join_of_isAbsolute h, Path.join_of_isAbsolute h]

end Visit

/-- A world, and where statements have been run in it. -/
structure Journal (ω : Type) where
  world : ω
  visits : List Visit := []

/-- Where statements were run in a step. -/
def CodeRunner.Step.visits (step : Step (Journal ω)) : List Visit :=
  step.after.world.visits.drop step.before.world.visits.length

/-- What has been written down is where statements were run. -/
theorem CodeRunner.Step.visits_eq {block : CodeBlock} {result : Except Error Text}
    {scene mid : Scene (Journal ω)} {events reported : List Event} {more : List Visit}
    (h : mid.world.visits = (scene.logged events).world.visits ++ more) :
    visits ⟨block, result, scene, mid.logged reported⟩ = more := by
  rw [visits, Scene.world_logged, h, Scene.world_logged, List.drop_left]

/-- The statements of a block were run once, in the directory of the block, or they were not run and
the block failed. -/
def CodeRunner.Step.Placed (dir : Text) (step : Step (Journal ω)) : Prop :=
  (∃ visit, step.visits = [visit] ∧ visit.Proper dir) ∨
    (step.visits = [] ∧ ∃ e, step.result = .error e)

/-! ### Interpreters that keep a directory -/

/-- An interpreter that keeps a directory. -/
structure Roamer (ω μ : Type) where
  /-- The directory that everything is started in. -/
  home : Text
  /-- All that is not about the directory of the interpreter. Its paths are taken from the root. -/
  base : Host ω μ
  /-- The directory that a line tells to change to, and the statements behind it. -/
  read : Text → Option (Text × List Text)
  /-- What comes of statements that are run in a directory: what the child remembers afterwards, and
  the directory that it is in. -/
  run : ω → μ → (dir : Text) → (statements : List Text) → (allowed : Option Nat) →
    Option (Delivery (μ × Text)) × ω

namespace Roamer

/-- Statements that are run after a change of the directory. -/
def visit (r : Roamer ω μ) (world : ω) (before path : Text) (statements : List Text)
    (after : Text) : Visit where
  before
  path
  found := r.base.isDirectory world (Path.join before path)
  statements
  after

/-- The host whose children are such interpreters. It writes down where statements are run. -/
def host (r : Roamer ω μ) : Host (Journal ω) (μ × Text) where
  clock journal := r.base.clock journal.world
  readText journal path := r.base.readText journal.world (Path.join r.home path)
  isDirectory journal path := r.base.isDirectory journal.world (Path.join r.home path)
  runCommand journal program args dir :=
    let place := Path.join r.home dir
    let visits := journal.visits ++ [r.visit journal.world r.home dir args place]
    match r.base.runCommand journal.world program args place with
    | (some (.error reason), world) => (some (.error reason), { journal with world })
    | (some (.ok output), world) => (some (.ok output), { world, visits })
    | (none, world) => (none, { world, visits })
  start journal program args allowed :=
    let (launch, world) := r.base.start journal.world program args allowed
    (launch.map (·, r.home), { journal with world })
  send journal child line allowed :=
    match r.read line with
    | none =>
      let (delivery, world) := r.base.send journal.world child.1 line allowed
      (delivery.map (Delivery.map (·, child.2)), { journal with world })
    | some (path, statements) =>
      let place := Path.join child.2 path
      let place := if r.base.isDirectory journal.world place then place else child.2
      match r.run journal.world child.1 place statements allowed with
      | (some (.taken reaction), world) =>
        let visit := r.visit journal.world child.2 path statements reaction.child.2
        (some (.taken reaction), { world, visits := journal.visits ++ [visit] })
      | (delivery, world) => (delivery, { journal with world })
  finish journal child grace :=
    let (ending, world) := r.base.finish journal.world child.1 grace
    (ending, { journal with world })
  kill journal child :=
    let (killed, world) := r.base.kill journal.world child.1
    (killed, { journal with world })

/-- For the directories of some blocks a profile has a command, and the interpreter reads from this
command and the statements of the block, as one line, where to go and what to run. It reads nothing
from the line for the sentinel. -/
structure Heeds (r : Roamer ω μ) (profile : Profile) (calls : List (Text × Text)) : Prop where
  echo : r.read profile.echoCommand = none
  nothing : r.read [] = none
  command : ∀ call ∈ calls,
    ((profile.chdirCommand? call.2).bind fun chdir ↦
      r.read (Text.joinWith profile.separator (chdir :: profile.statements call.1))) =
        some (call.2, profile.statements call.1)

/-- The directory that an interpreter is in, if it is running. -/
def place (interpreter : Interpreter (μ × Text)) : Option Text :=
  interpreter.session.map (·.child.2)

/-- Where an interpreter goes, block by block, from the directory that it is in. One that does not
run is at home when it is started. -/
inductive Trail (r : Roamer ω μ) (profile : Profile) :
    Option Text → List (Text × Text) → List (CodeRunner.Step (Journal ω)) → Prop
  | nil (place : Option Text) : Trail r profile place [] []
  | ran {place : Option Text} {body dir : Text} {calls : List (Text × Text)}
      {step : CodeRunner.Step (Journal ω)} {steps : List (CodeRunner.Step (Journal ω))}
      (world : ω) (after : Text)
      (hvisits : step.visits =
        [r.visit world (place.getD r.home) dir (profile.statements body) after])
      (hrest : Trail r profile (step.result.toOption.map fun _ ↦ after) calls steps) :
      Trail r profile place ((body, dir) :: calls) (step :: steps)
  | failed {place : Option Text} {body dir : Text} {calls : List (Text × Text)}
      {step : CodeRunner.Step (Journal ω)} {steps : List (CodeRunner.Step (Journal ω))} {e : Error}
      (hvisits : step.visits = []) (hresult : step.result = .error e)
      (hrest : Trail r profile none calls steps) :
      Trail r profile place ((body, dir) :: calls) (step :: steps)

variable {r : Roamer ω μ} {profile : Profile} {past : List Visit}

/-! ### One block -/

/-- A child is started at home. -/
theorem starts (r : Roamer ω μ) (profile : Profile) (past : List Visit) :
    r.host.Starts profile (fun journal ↦ journal.visits = past)
      fun journal child ↦ journal.visits = past ∧ child.2 = r.home := by
  intro journal hpast
  unfold host
  dsimp only
  rw [Launch.child?_map]
  cases (r.base.start journal.world profile.command profile.args profile.timeoutSecs).1.child? with
  | none => exact hpast
  | some child => exact ⟨hpast, rfl⟩

variable (r) in
/-- An interpreter that does not run is started in its place. -/
theorem starts_place {interpreter : Interpreter (μ × Text)} (h : interpreter.session = none) :
    r.host.Starts interpreter.profile (fun journal ↦ journal.visits = past)
      fun journal child ↦ journal.visits = past ∧ child.2 = (place interpreter).getD r.home := by
  rw [place, h]
  exact starts r interpreter.profile past

variable (r) in
/-- An interpreter that runs is in its place. -/
theorem says_place {interpreter : Interpreter (μ × Text)} {journal : Journal ω}
    (h : journal.visits = past) :
    interpreter.Says (fun journal ↦ journal.visits = past)
      (fun journal child ↦ journal.visits = past ∧ child.2 = (place interpreter).getD r.home)
      journal := by
  unfold Interpreter.Says place
  cases interpreter.session with
  | none => exact h
  | some session => exact ⟨h, rfl⟩

/-- What is said of the visits and of the directory of a child is kept while the child is made to
print its sentinel: that line tells nothing about directories. -/
theorem keeps (hecho : r.read profile.echoCommand = none) (said : List Visit → Prop)
    (own : List Visit → Text → Prop) (h : ∀ visits dir, own visits dir → said visits) :
    r.host.Keeps profile (fun journal ↦ said journal.visits)
      fun journal child ↦ own journal.visits child.2 where
  echo journal child hown := by
    simp only [host, hecho]
    generalize (r.base.send journal.world child.1 profile.echoCommand profile.timeoutSecs).1 =
      delivery
    rcases delivery with _ | _ | _ | _ <;> exact hown
  finish _ _ _ hown := h _ _ hown
  kill _ _ hown := h _ _ hown

/-- A command that tells to change the directory is written down when it is taken. -/
theorem turns {command path : Text} {statements : List Text} (hnil : r.read [] = none)
    (hread : r.read command = some (path, statements)) (here : Text) :
    r.host.Turns profile command (fun journal child ↦ journal.visits = past ∧ child.2 = here)
      fun journal child ↦ ∃ world, journal.visits =
        past ++ [r.visit world here path statements child.2] where
  unsent hcommand := by
    rw [hcommand, hnil] at hread
    cases hread
  sent _ := by
    rintro journal child ⟨hpast, rfl⟩
    simp only [host, hread]
    rcases r.run journal.world child.1 _ statements profile.timeoutSecs with
      ⟨_ | reaction | _ | _, later⟩
    · exact ⟨hpast, trivial⟩
    · exact ⟨_, by rw [hpast]⟩
    · exact ⟨hpast, trivial⟩
    · exact ⟨hpast, trivial⟩

/-- The interpreter reads the input lines of such blocks. -/
theorem Heeds.read_commandLine {calls : List (Text × Text)} (h : r.Heeds profile calls)
    {body dir : Text} (hcall : (body, dir) ∈ calls) :
    r.read (profile.commandLine dir body) = some (dir, profile.statements body) := by
  have hread := h.command _ hcall
  rw [Profile.commandLine]
  cases hchdir : profile.chdirCommand? dir with
  | none =>
    rw [hchdir] at hread
    cases hread
  | some chdir =>
    rw [hchdir] at hread
    exact hread

/-- A block is run where its line leads the interpreter from the directory that it is in, or it
fails without having been run. -/
theorem execute_visits {interpreter next : Interpreter (μ × Text)} {body dir : Text}
    {statements : List Text} {scene later : Scene (Journal ω)} {result : Except Error Text}
    (hecho : r.read interpreter.profile.echoCommand = none) (hnil : r.read [] = none)
    (hread : r.read (interpreter.profile.commandLine dir body) = some (dir, statements))
    (h : (interpreter.execute r.host body dir).outcome scene = (.ok (result, next), later)) :
    next.profile = interpreter.profile ∧
    ∃ visits, later.world.visits = scene.world.visits ++ visits ∧
      ((∃ world after,
          visits = [r.visit world ((place interpreter).getD r.home) dir statements after] ∧
          place next = result.toOption.map fun _ ↦ after) ∨
        (visits = [] ∧ place next = none ∧ ∃ e, result = .error e)) := by
  let here := (place interpreter).getD r.home
  have hkeeps := keeps hecho (· = scene.world.visits)
    (fun visits dir ↦ visits = scene.world.visits ∧ dir = here) fun _ _ ↦ And.left
  have hkeeps' := keeps hecho
    (fun visits ↦ ∃ world after, visits =
      scene.world.visits ++ [r.visit world here dir statements after])
    (fun visits after ↦ ∃ world, visits =
      scene.world.visits ++ [r.visit world here dir statements after])
    fun _ after ⟨world, hvisits⟩ ↦ ⟨world, after, hvisits⟩
  have hexecutes := (interpreter.execute_exits r.host body dir).of_outcome h
  refine ⟨hexecutes.keeps.2, ?_⟩
  cases result with
  | ok answer =>
    obtain ⟨session, hsession, world, hvisits⟩ := hexecutes.turned (starts_place r) hkeeps
      (says_place r rfl) (turns hnil hread here) hkeeps'
    exact ⟨_, hvisits, .inl ⟨world, session.child.2, rfl, by rw [place, hsession]; rfl⟩⟩
  | error e =>
    obtain ⟨hsession, hvisits | ⟨world, after, hvisits⟩⟩ := hexecutes.kept_or_turned
      (starts_place r) hkeeps (says_place r rfl) (turns hnil hread here) hkeeps'
    · exact ⟨[], hvisits.trans (List.append_nil _).symm,
        .inr ⟨rfl, by rw [place, hsession]; rfl, e, rfl⟩⟩
    · exact ⟨_, hvisits, .inl ⟨world, after, rfl, by rw [place, hsession]; rfl⟩⟩

/-! ### All blocks -/

/-- On a trail, the blocks whose directories are given from the root are run there exactly if the
directories are found. -/
theorem Trail.placed {place : Option Text} {calls : List (Text × Text)}
    {steps : List (CodeRunner.Step (Journal ω))} (h : r.Trail profile place calls steps) :
    List.Forall₂ (fun call step ↦ Path.isAbsolute call.2 = true →
      (step.Placed (Path.join r.home call.2) ↔ ∀ visit ∈ step.visits, visit.found = true))
      calls steps := by
  induction h with
  | nil => exact .nil
  | ran world after hvisits _ ih =>
    refine .cons (fun habsolute ↦ ?_) ih
    simp only [CodeRunner.Step.Placed, hvisits, List.mem_singleton, forall_eq, List.cons_ne_nil,
      false_and, or_false, List.cons.injEq, and_true, exists_eq_left']
    exact Visit.proper_iff_found habsolute
  | failed hvisits hresult _ ih =>
    refine .cons (fun _ ↦ ?_) ih
    rw [hvisits]
    exact ⟨fun _ _ hvisit ↦ absurd hvisit List.not_mem_nil, fun _ ↦ .inr ⟨hvisits, _, hresult⟩⟩

variable {runner last : CodeRunner (μ × Text)} {name : Text} {interpreter : Interpreter (μ × Text)}
  {scene later : Scene (Journal ω)} {steps : List (CodeRunner.Step (Journal ω))}

/-- In a rendering, an interpreter goes from block to block of its own. -/
theorem trail (h : CodeRunner.Rendering r.host runner scene steps last later)
    (hget : runner.interpreters.get? name = some interpreter)
    (hheeds : r.Heeds interpreter.profile
      (runner.requests name (steps.map CodeRunner.Step.block))) :
    r.Trail interpreter.profile (place interpreter)
      (runner.requests name (steps.map CodeRunner.Step.block)) (runner.own name steps) := by
  induction h generalizing interpreter with
  | nil => exact .nil _
  | @cons runner next last scene mid later block result steps hrun hrest ih =>
    obtain ⟨-, hworkspace, -, hprofiles⟩ := CodeRunner.dispatch_keeps hrun
    have hlanguages := CodeRunner.language_eq hprofiles
    rw [CodeRunner.requests_eq hlanguages hworkspace, CodeRunner.own_eq hlanguages] at ih
    rw [List.map_cons] at hheeds ⊢
    by_cases hlanguage : runner.language block.language = .interpreter name
    · obtain ⟨after, hexecute, hafter⟩ := CodeRunner.dispatch_own hrun hlanguage hget
      rw [CodeRunner.requests_cons_of_eq hlanguage] at hheeds ⊢
      rw [CodeRunner.own_cons_of_eq hlanguage]
      obtain ⟨hprofile, visits, hvisits, hcases⟩ := execute_visits hheeds.echo hheeds.nothing
        (hheeds.read_commandLine List.mem_cons_self) hexecute
      have htrail := ih hafter (hprofile ▸
        ⟨hheeds.echo, hheeds.nothing, fun call hcall ↦
          hheeds.command call (List.mem_cons_of_mem _ hcall)⟩)
      rw [hprofile] at htrail
      obtain ⟨world, left, rfl, hplace⟩ | ⟨rfl, hplace, e, rfl⟩ := hcases
      · exact .ran world left (CodeRunner.Step.visits_eq hvisits) (hplace ▸ htrail)
      · exact .failed (CodeRunner.Step.visits_eq hvisits) rfl (hplace ▸ htrail)
    · rw [CodeRunner.requests_cons_of_ne hlanguage] at hheeds ⊢
      rw [CodeRunner.own_cons_of_ne hlanguage]
      exact ih (CodeRunner.dispatch_other hrun hlanguage ▸ hget) hheeds

/-- A command of the shell is run in its directory, or not at all. -/
theorem shell_visits {settings : ShellSettings} {body dir : Text} {result : Except Error Text}
    (h : (ShellCommand.execute r.host settings body dir).outcome scene = (.ok result, later)) :
    ∃ visits, later.world.visits = scene.world.visits ++ visits ∧
      ∀ visit ∈ visits, visit.Proper (Path.join r.home dir) := by
  have hexecutes := (ShellCommand.execute_exits r.host settings body dir).of_outcome h
  generalize later.world = last at hexecutes ⊢
  cases hexecutes with
  | empty _ => exact ⟨[], (List.append_nil _).symm, nofun⟩
  | missing _ _ => exact ⟨[], (List.append_nil _).symm, nofun⟩
  | failed _ _ hran =>
    unfold host at hran
    dsimp only at hran
    split at hran <;> cases hran
    exact ⟨[], (List.append_nil _).symm, nofun⟩
  | ran _ hdirectory hran =>
    have hfound : r.base.isDirectory scene.world.world (Path.join r.home dir) = true := hdirectory
    unfold host at hran
    dsimp only at hran
    split at hran <;> cases hran
    refine ⟨[r.visit scene.world.world r.home dir _ _], rfl, fun visit hvisit ↦ ?_⟩
    exact List.mem_singleton.mp hvisit ▸ Visit.proper_of_found hfound

/-- In a rendering, the commands of the shell are run in their own directories only. -/
theorem shell_proper (h : CodeRunner.Rendering r.host runner scene steps last later) :
    ∀ step ∈ steps, runner.language step.block.language = .shell →
      ∀ visit ∈ step.visits, visit.Proper (runner.dirOf r.home step.block) := by
  induction h with
  | nil => nofun
  | @cons runner next last scene mid later block result steps hrun hrest ih =>
    obtain ⟨-, hworkspace, -, hprofiles⟩ := CodeRunner.dispatch_keeps hrun
    rw [CodeRunner.language_eq hprofiles] at ih
    unfold CodeRunner.dirOf at ih
    rw [hworkspace] at ih
    intro step hstep hshell visit hvisit
    obtain rfl | hstep := List.mem_cons.mp hstep
    · obtain ⟨_, _, _, hlanguage, -⟩ | ⟨-, -, hexecute⟩ | ⟨-, -, hother, -⟩ :=
        CodeRunner.dispatch_cases hrun
      · cases hshell.symm.trans hlanguage
      · obtain ⟨visits, hvisits, hproper⟩ := shell_visits hexecute
        rw [CodeRunner.Step.visits_eq hvisits] at hvisit
        rw [← CodeRunner.join_workingDir]
        exact hproper visit hvisit
      · exact absurd hshell hother
    · exact ih step hstep hshell visit hvisit

/-- **Whereabouts.** An interpreter goes from block to block of its own, each time from the
directory that it has been left in. If the workspace or the directory of a block is given from the
root, the block is run in its directory exactly if that is found; otherwise its statements are run
all the same. A command of the shell is run in its directory or not at all. -/
theorem render_trail (henabled : runner.noExec = false)
    (hget : runner.interpreters.get? name = some interpreter)
    {segments : List Segment} {text : Text}
    (hheeds : r.Heeds interpreter.profile (runner.requests name (Segment.blocks segments)))
    (hrun : (runner.renderSegments r.host segments).outcome scene = (.ok (text, last), later)) :
    ∃ steps, CodeRunner.Rendering r.host runner scene steps last later ∧
      steps.map CodeRunner.Step.block = Segment.blocks segments ∧
      r.Trail interpreter.profile (place interpreter)
        (runner.requests name (Segment.blocks segments)) (runner.own name steps) ∧
      (∀ step ∈ runner.own name steps,
        Path.isAbsolute runner.workspace = true ∨
          step.block.fenceOptions.path.any Path.isAbsolute = true →
        (step.Placed (runner.dirOf r.home step.block) ↔
          ∀ visit ∈ step.visits, visit.found = true)) ∧
      ∀ step ∈ steps, runner.language step.block.language = .shell →
        ∀ visit ∈ step.visits, visit.Proper (runner.dirOf r.home step.block) := by
  obtain ⟨steps, hsteps, hblocks, -⟩ :=
    (CodeRunner.renderSegments_ensures henabled segments scene).result rfl hrun
  rw [← hblocks] at hheeds ⊢
  have htrail := trail hsteps hget hheeds
  refine ⟨steps, hsteps, rfl, htrail, fun step hstep habsolute ↦ ?_, shell_proper hsteps⟩
  have hplaced := htrail.placed
  rw [CodeRunner.requests_map_block, List.forall₂_map_left_iff, List.forall₂_same] at hplaced
  rw [← CodeRunner.join_workingDir]
  exact hplaced step hstep (CodeRunner.isAbsolute_workingDir habsolute)

end Roamer

namespace Rover

/-- A shell that changes its directory first. -/
def profile : Profile :=
  { command := "sh".toList
    echo := "echo '#########'".toList
    separator := "; ".toList
    chdir := some "cd '{dir}'".toList }

/-- The directory that a line begins with, and the statement behind it. -/
def read (line : Text) : Option (Text × List Text) := do
  let (dir, rest) ← Text.breakOn? "'".toList (← Text.after? "cd '".toList line)
  return (dir, (Text.after? "; ".toList rest).toList)

/-- An interpreter that prints the directory that it is in. All directories are there but those that
are called missing. -/
def rover : Roamer Unit Unit where
  home := "/w".toList
  base :=
    { clock := fun _ ↦ 0
      readText := fun _ _ ↦ .error []
      isDirectory := fun _ path ↦ !Text.holds "missing".toList path
      runCommand := fun _ _ _ _ ↦ (some (.ok []), ())
      start := fun _ _ _ _ ↦ (.running ⟨(), [], false⟩, ())
      send := fun _ _ _ _ ↦ (some (.taken ⟨(), Utf8.encode "#########\n".toList, false⟩), ())
      finish := fun _ _ _ ↦ (some .exited, ())
      kill := fun _ _ ↦ (some (), ()) }
  read := read
  run _ _ dir _ _ := (some (.taken ⟨((), dir), Utf8.encode (dir ++ ['\n']), false⟩), ())

/-- A block that is run in a directory. -/
def block (options : List String) : Segment :=
  .code ⟨"repl".toList, options.map String.toList, "pwd\n".toList⟩

/-- A runner with a workspace. -/
def runner (workspace : Text) : CodeRunner (Unit × Text) :=
  { CodeRunner.single profile with workspace }

/-- What blocks come to in a workspace. -/
def wander (workspace : Text) (segments : List Segment) :
    Except Halt (Text × CodeRunner (Unit × Text)) × Scene (Journal Unit) :=
  ((runner workspace).renderSegments rover.host segments).outcome { world := { world := () } }

/-- The directories that statements were run in. -/
def dirs (workspace : Text) (segments : List Segment) : List Text :=
  (wander workspace segments).2.world.visits.map Visit.dir

/-- A block with a directory, and one without. -/
def trip : List Segment := [block ["--path", "sub"], block []]

/-- On a trip through directories that are there, every block is run in its own one. -/
theorem render_trip : dirs ['/'] trip = ["/sub".toList, "/".toList] ∧
    ∃ steps last later,
      CodeRunner.Rendering rover.host (runner ['/']) { world := { world := () } } steps last later ∧
      steps.map CodeRunner.Step.block = Segment.blocks trip ∧
      ∀ step ∈ (runner ['/']).own "repl".toList steps,
        (step.Placed ((runner ['/']).dirOf rover.home step.block) ↔
          ∀ visit ∈ step.visits, visit.found = true) := by
  refine ⟨by decide +kernel, ?_⟩
  have hok : (wander ['/'] trip).1.toBool = true := by decide +kernel
  have hheeds : rover.Heeds profile
      ((runner ['/']).requests "repl".toList (Segment.blocks trip)) :=
    ⟨by decide +kernel, by decide +kernel, by decide +kernel⟩
  let interpreter : Interpreter (Unit × Text) := { name := "repl".toList, profile }
  have hget : (runner ['/']).interpreters.get? "repl".toList = some interpreter := rfl
  rcases hrun : wander ['/'] trip with ⟨result, later⟩
  rw [hrun] at hok
  cases result with
  | error reason => cases hok
  | ok rendered =>
    obtain ⟨steps, hsteps, hblocks, -, hplaced, -⟩ :=
      Roamer.render_trail rfl hget hheeds hrun
    exact ⟨steps, _, later, hsteps, hblocks, fun step hstep ↦ hplaced step hstep (.inl rfl)⟩

/-- A block whose directory is missing is run in that of the block before, and does not fail. A
block in a workspace that is not given from the root is run below the directory of the block
before. -/
theorem dirs_astray :
    (dirs ['/'] [block ["--path", "sub"], block ["--path", "missing"]] =
        ["/sub".toList, "/sub".toList] ∧
      (wander ['/']
          [block ["--path", "sub"], block ["--path", "missing"]]).1.toOption.map Prod.fst =
        some ("```repl\npwd\n```\n\n```\n/sub\n```\n" ++
          "```repl\npwd\n```\n\n```\n/sub\n```\n").toList) ∧
    (dirs ['.'] trip = ["/w/./sub".toList, "/w/./sub/.".toList] ∧
      (wander ['.'] trip).1.toOption.map Prod.fst =
        some ("```repl\npwd\n```\n\n```\n/w/./sub\n```\n" ++
          "```repl\npwd\n```\n\n```\n/w/./sub/.\n```\n").toList) := by
  decide +kernel

end Rover

end Weave
