import Weave.Proofs.Pairing
import Weave.Proofs.Rendering
import Weave.Proofs.Simulation

/-!
# Interpreters that are by themselves

The children of an interpreter may depend on nothing but what they are sent. Then whatever else a
document holds, such an interpreter does with its blocks what it does with them alone: it sends the
same lines, comes to the same results and is left in the same state. Only the bodies and the
directories of its own blocks matter, as long as no other block brings the whole rendering to a
halt.

## Main definitions

* `Weave.Host.overheard`: the host that writes down what children are told.
* `Weave.Host.Secludes`: children that depend on nothing but what they are sent.
* `Weave.CodeRunner.Trimmed`: blocks with others left out and options changed.
* `Weave.CodeRunner.HaltsElsewhere`: renderings that another block brings to a halt.
* `Weave.Observation`: what can be seen of an interpreter.

## Main results

* `Weave.CodeRunner.Rendering.secluded`: a rendering is for an interpreter a row of its own blocks.
* `Weave.CodeRunner.render_observation`: the other blocks and most options make no difference to it.
-/

namespace Weave

variable {ω ω' σ τ : Type}

/-! ### What children are told -/

/-- Something that a child is told. -/
inductive Telling where
  | started
  | line (text : Text)
  | closed
  | killed
  deriving Repr, DecidableEq

/-- A world, and what children have been told in it. -/
structure Tape (ω : Type) where
  world : ω
  told : List Telling := []

/-- The host that writes down when a child is started, what it is sent, and when it is closed or
killed. -/
def Host.overheard (host : Host ω σ) : Host (Tape ω) σ where
  clock tape := host.clock tape.world
  readText tape := host.readText tape.world
  isDirectory tape := host.isDirectory tape.world
  runCommand tape program args dir :=
    let (result, world) := host.runCommand tape.world program args dir
    (result, { tape with world })
  start tape program args allowed :=
    let (result, world) := host.start tape.world program args allowed
    (result, { world, told := tape.told ++ [.started] })
  send tape child line allowed :=
    let (delivery, world) := host.send tape.world child line allowed
    (delivery, { world, told := tape.told ++ [.line line] })
  finish tape child grace :=
    let (ending, world) := host.finish tape.world child grace
    (ending, { world, told := tape.told ++ [.closed] })
  kill tape child :=
    let (done, world) := host.kill tape.world child
    (done, { world, told := tape.told ++ [.killed] })

/-- Since children had been told `past` and `other`, they have been told the same on both tapes. -/
def Tape.Alike (past other : List Telling) (worlds : ω → ω' → Prop) (tape : Tape ω)
    (tape' : Tape ω') : Prop :=
  worlds tape.world tape'.world ∧ ∃ more, tape.told = past ++ more ∧ tape'.told = other ++ more

/-- What children are told next on both tapes. -/
theorem Tape.Alike.tell {past other : List Telling} {worlds : ω → ω' → Prop} {tape : Tape ω}
    {tape' : Tape ω'} (h : tape.Alike past other worlds tape') {w : ω} {v : ω'} (hw : worlds w v)
    (telling : Telling) :
    Tape.Alike past other worlds ⟨w, tape.told ++ [telling]⟩ ⟨v, tape'.told ++ [telling]⟩ := by
  obtain ⟨-, more, htold, htold'⟩ := h
  exact ⟨hw, more ++ [telling], by rw [htold, List.append_assoc], by rw [htold', List.append_assoc]⟩

/-- Children that do the same are told the same. -/
theorem Host.Mimics.overheard {host : Host ω σ} {image : Host ω' τ} {profile : Profile}
    {worlds : ω → ω' → Prop} {children : σ → τ → Prop} {exact : Prop}
    (h : host.Mimics image profile worlds children exact) (past other : List Telling) :
    host.overheard.Mimics image.overheard profile (Tape.Alike past other worlds) children
      exact where
  clock_le tape tape' htapes := h.clock_le _ _ htapes.1
  clock_ge hexact tape tape' htapes := h.clock_ge hexact _ _ htapes.1
  start tape tape' htapes := by
    obtain ⟨hstart, hworlds⟩ := h.start _ _ htapes.1
    exact ⟨hstart, htapes.tell hworlds _⟩
  send tape tape' child child' line htapes hchild := by
    obtain ⟨hsend, hworlds⟩ := h.send _ _ child child' line htapes.1 hchild
    exact ⟨hsend, htapes.tell hworlds _⟩
  finish tape tape' child child' grace htapes hchild := by
    obtain ⟨hfinish, hworlds⟩ := h.finish _ _ child child' grace htapes.1 hchild
    exact ⟨hfinish, htapes.tell hworlds _⟩
  kill tape tape' child child' htapes hchild := by
    obtain ⟨hkill, hworlds⟩ := h.kill _ _ child child' htapes.1 hchild
    exact ⟨hkill, htapes.tell hworlds _⟩

/-- The children that a host starts for a profile depend on nothing but what they are sent: they do
what the children do of a host without a world. -/
def Host.Secludes (host : Host ω σ) (image : Host Unit τ) (profile : Profile)
    (children : σ → τ → Prop) : Prop :=
  host.Mimics image profile (fun _ _ ↦ True) children False

theorem Reaction.like_self (reaction : Reaction σ) : reaction.Like Eq reaction := ⟨rfl, rfl, rfl⟩

/-- Without a world, all children are secluded. -/
theorem Host.secludes_self (host : Host Unit σ) (profile : Profile) :
    host.Secludes host profile Eq where
  clock_le _ _ _ := Nat.le_refl _
  clock_ge := nofun
  start _ _ _ := by
    refine ⟨?_, trivial⟩
    generalize (host.start () profile.command profile.args profile.timeoutSecs).1 = launch
    cases launch with
    | failed reason => exact .failed reason
    | uncaptured child => exact .uncaptured rfl
    | unread child reason => exact .unread rfl reason
    | running reaction => exact .running reaction.like_self
  send _ _ child other line _ h := by
    subst h
    refine ⟨?_, trivial⟩
    generalize (host.send () child line profile.timeoutSecs).1 = delivery
    cases delivery with
    | none => exact .none
    | some delivery =>
      cases delivery with
      | taken reaction => exact .some (.taken reaction.like_self)
      | closed => exact .some .closed
      | failed reason => exact .some (.failed reason)
  finish _ _ child other grace _ h := by
    subst h
    refine ⟨?_, trivial⟩
    cases (host.finish () child grace).1 with
    | none => exact .none
    | some ending => exact .some fun _ ↦ rfl
  kill _ _ child other _ h := by
    subst h
    exact ⟨rfl, trivial⟩

/-- A block that comes to a halt brings all blocks to a halt, if those before it come to results. -/
theorem Interpreter.executeAll_halt {host : Host ω σ} {interpreter next : Interpreter σ}
    {calls : List (Text × Text)} {results : List (Except Error Text)} {scene later last : Scene ω}
    {body dir : Text} {reason : Halt}
    (h : (interpreter.executeAll host calls).outcome scene = (.ok (results, next), later))
    (hhalt : (next.execute host body dir).outcome later = (.error reason, last))
    (more : List (Text × Text)) :
    (interpreter.executeAll host (calls ++ (body, dir) :: more)).outcome scene =
      (.error reason, last) := by
  induction calls generalizing interpreter scene results with
  | nil =>
    cases h
    rw [List.nil_append, executeAll, Task.outcome_bind, hhalt]
  | cons call calls ih =>
    obtain ⟨callBody, callDir⟩ := call
    rw [executeAll, Task.outcome_bind] at h
    rw [List.cons_append, executeAll, Task.outcome_bind]
    rcases hrun : (interpreter.execute host callBody callDir).outcome scene with ⟨result, mid⟩
    rw [hrun] at h
    cases result with
    | error reason => cases h
    | ok answered =>
      dsimp only at h ⊢
      rw [Task.outcome_bind] at h ⊢
      rcases hrest : (answered.2.executeAll host calls).outcome mid with ⟨others, done⟩
      rw [hrest] at h
      cases others with
      | error reason => cases h
      | ok others =>
        cases h
        rw [ih hrest]

/-- Where nothing has been told since, all tapes without a world are alike. -/
theorem Scene.like_tape (scene : Scene (Tape ω)) (alone : Scene (Tape Unit)) :
    Scene.Like (Tape.Alike scene.world.told alone.world.told fun _ _ ↦ True) False scene alone :=
  ⟨⟨trivial, [], (List.append_nil _).symm, (List.append_nil _).symm⟩, nofun⟩

/-- An interpreter whose children are secluded does with a block what it does without a world. -/
theorem Interpreter.execute_secluded {host : Host ω σ} {image : Host Unit τ}
    {children : σ → τ → Prop} {interpreter next : Interpreter σ} {other : Interpreter τ}
    (hsecludes : host.Secludes image interpreter.profile children)
    (hlike : interpreter.Like children other) {body dir : Text} {result : Except Error Text}
    {scene later : Scene (Tape ω)}
    (h : (interpreter.execute host.overheard body dir).outcome scene = (.ok (result, next), later))
    (alone : Scene (Tape Unit)) :
    ∃ after last more, (other.execute image.overheard body dir).outcome alone =
      (.ok (result, after), last) ∧ next.Like children after ∧
      next.profile = interpreter.profile ∧
      later.world.told = scene.world.told ++ more ∧ last.world.told = alone.world.told ++ more := by
  obtain ⟨⟨_, after⟩, last, hrun, ⟨rfl, hafter, hprofile⟩, ⟨-, more, htold, htold'⟩, -⟩ :=
    (execute_mimics (hsecludes.overheard _ _) hlike body dir).result (scene.like_tape alone) h
  exact ⟨after, last, more, hrun, hafter, hprofile, htold, htold'⟩

/-- It comes to the same halts, but for deadlines that are too far ahead. -/
theorem Interpreter.execute_secluded_halt {host : Host ω σ} {image : Host Unit τ}
    {children : σ → τ → Prop} {interpreter : Interpreter σ} {other : Interpreter τ}
    (hsecludes : host.Secludes image interpreter.profile children)
    (hlike : interpreter.Like children other) {body dir : Text} {reason : Halt}
    {scene later : Scene (Tape ω)}
    (h : (interpreter.execute host.overheard body dir).outcome scene = (.error reason, later))
    (hreason : reason ≠ .clockOverflow) (alone : Scene (Tape Unit)) :
    ∃ last, (other.execute image.overheard body dir).outcome alone = (.error reason, last) := by
  obtain ⟨last, hrun, -⟩ := (execute_mimics (hsecludes.overheard _ _) hlike body dir).halt
    (scene.like_tape alone) h (.inr hreason)
  exact ⟨last, hrun⟩

namespace CodeRunner

/-! ### Blocks that are left out -/

section Trimmed

variable {runner : CodeRunner σ} {name : Text}

/-- Blocks with some left out that are not dispatched to an interpreter, and with options changed,
but not the parsed path. -/
inductive Trimmed (runner : CodeRunner σ) (name : Text) : List CodeBlock → List CodeBlock → Prop
  | nil : Trimmed runner name [] []
  | drop {blocks rest : List CodeBlock} (block : CodeBlock)
      (hother : runner.language block.language ≠ .interpreter name)
      (h : Trimmed runner name blocks rest) : Trimmed runner name (block :: blocks) rest
  | keep {blocks rest : List CodeBlock} (block : CodeBlock) (options : List Text)
      (hpath : ({ block with options } : CodeBlock).fenceOptions.path = block.fenceOptions.path)
      (h : Trimmed runner name blocks rest) :
      Trimmed runner name (block :: blocks) ({ block with options } :: rest)

/-- The blocks of the interpreter are asked for as before. -/
theorem Trimmed.requests_eq {blocks rest : List CodeBlock} (h : runner.Trimmed name blocks rest) :
    runner.requests name blocks = runner.requests name rest := by
  induction h with
  | nil => rfl
  | drop block hother _ ih => rw [requests_cons_of_ne hother, ih]
  | @keep blocks rest block options hpath _ ih =>
    have hdir : runner.workingDir ({ block with options } : CodeBlock).fenceOptions =
        runner.workingDir block.fenceOptions := by rw [workingDir, hpath, workingDir]
    by_cases hlanguage : runner.language block.language = .interpreter name
    · have hkept : runner.language ({ block with options } : CodeBlock).language =
          .interpreter name := hlanguage
      rw [requests_cons_of_eq hlanguage, requests_cons_of_eq hkept, ih, hdir]
    · have hkept : runner.language ({ block with options } : CodeBlock).language ≠
          .interpreter name := hlanguage
      rw [requests_cons_of_ne hlanguage, requests_cons_of_ne hkept, ih]

end Trimmed

theorem requests_append (runner : CodeRunner σ) (name : Text) (blocks rest : List CodeBlock) :
    runner.requests name (blocks ++ rest) =
      runner.requests name blocks ++ runner.requests name rest := by
  rw [requests, List.filter_append, List.map_append]
  rfl

/-! ### Renderings -/

/-- What children were told by a step. -/
def Step.told (step : Step (Tape ω)) : List Telling :=
  step.after.world.told.drop step.before.world.told.length

/-- What the children of an interpreter were told. -/
def told (runner : CodeRunner σ) (name : Text) (steps : List (Step (Tape ω))) : List Telling :=
  (runner.own name steps).flatMap Step.told

theorem told_eq {runner next : CodeRunner σ} (h : next.language = runner.language) (name : Text)
    (steps : List (Step (Tape ω))) : next.told name steps = runner.told name steps := by
  rw [told, told, own_eq h]

variable {host : Host ω σ} {image : Host Unit τ} {children : σ → τ → Prop}
  {runner last : CodeRunner σ} {name : Text} {interpreter : Interpreter σ} {other : Interpreter τ}
  {scene later : Scene (Tape ω)} {steps : List (Step (Tape ω))}

/-- **Seclusion.** In a rendering, an interpreter whose children are secluded does what it does with
its own blocks alone. -/
theorem Rendering.secluded (h : Rendering host.overheard runner scene steps last later)
    (hget : runner.interpreters.get? name = some interpreter)
    (hsecludes : host.Secludes image interpreter.profile children)
    (hlike : interpreter.Like children other) (alone : Scene (Tape Unit)) :
    ∃ final after done, last.interpreters.get? name = some final ∧ final.Like children after ∧
      final.profile = interpreter.profile ∧
      (other.executeAll image.overheard (runner.requests name (steps.map Step.block))).outcome
        alone = (.ok (runner.calls name steps, after), done) ∧
      done.world.told = alone.world.told ++ runner.told name steps := by
  induction h generalizing interpreter other alone with
  | nil runner scene =>
    exact ⟨interpreter, other, alone, hget, hlike, rfl, rfl, (List.append_nil _).symm⟩
  | @cons runner next last scene mid later block result steps hrun hrest ih =>
    obtain ⟨-, hworkspace, -, hprofiles⟩ := dispatch_keeps hrun
    have hlanguages := CodeRunner.language_eq hprofiles
    rw [calls_eq hlanguages, told_eq hlanguages, requests_eq hlanguages hworkspace] at ih
    rw [List.map_cons, calls, told]
    by_cases hlanguage : runner.language block.language = .interpreter name
    · -- The block is run by the interpreter: alone it does the same, and then the rest.
      obtain ⟨next', hexecute, hnext⟩ := dispatch_own hrun hlanguage hget
      obtain ⟨other', between, more, halone, hlike', hprofile, htold, htold'⟩ :=
        Interpreter.execute_secluded hsecludes hlike hexecute alone
      obtain ⟨final, after, done, hfinal, hafter, hsame, hothers, hdone⟩ :=
        ih hnext (hprofile ▸ hsecludes) hlike' between
      refine ⟨final, after, done, hfinal, hafter, hsame.trans hprofile, ?_, ?_⟩
      · rw [requests_cons_of_eq hlanguage, own_cons_of_eq hlanguage, Interpreter.executeAll,
          Task.outcome_bind, halone]
        dsimp only
        rw [Task.outcome_bind, hothers]
        rfl
      · have hstep : mid.world.told.drop scene.world.told.length = more := by
          rw [htold, Scene.world_logged, List.drop_left]
        rw [hdone, htold', own_cons_of_eq hlanguage, List.flatMap_cons, Step.told,
          Scene.world_logged, hstep, List.append_assoc]
        rfl
    · rw [requests_cons_of_ne hlanguage, own_cons_of_ne hlanguage]
      exact ih (dispatch_other hrun hlanguage ▸ hget) hsecludes hlike alone

end CodeRunner

/-! ### Observations -/

/-- What can be seen of an interpreter: the results of its blocks, what its children were told, and
how it is left. -/
structure Observation where
  results : List (Except Error Text)
  told : List Telling
  isReady : Bool
  spawnCount : Nat

/-- What can be seen of an interpreter without a world that runs blocks. -/
def Interpreter.observe (image : Host Unit τ) (interpreter : Interpreter τ)
    (requests : List (Text × Text)) : Option Observation :=
  match (interpreter.executeAll image.overheard requests).outcome { world := { world := () } } with
  | (.ok (results, last), done) => some ⟨results, done.world.told, last.isReady, last.spawnCount⟩
  | (.error _, _) => none

namespace CodeRunner

/-- What can be seen of an interpreter when a runner has taken some steps. -/
def observation (runner last : CodeRunner σ) (name : Text) (steps : List (Step (Tape ω))) :
    Option Observation :=
  (last.interpreters.get? name).map fun final ↦
    ⟨runner.calls name steps, runner.told name steps, final.isReady, final.spawnCount⟩

variable {host : Host ω σ} {image : Host Unit τ} {children : σ → τ → Prop}
  {runner last : CodeRunner σ} {name : Text} {interpreter : Interpreter σ} {other : Interpreter τ}
  {scene later : Scene (Tape ω)} {steps : List (Step (Tape ω))}

/-- Only the requests to an interpreter decide what can be seen of it. -/
theorem Rendering.observation_eq (h : Rendering host.overheard runner scene steps last later)
    (hget : runner.interpreters.get? name = some interpreter)
    (hsecludes : host.Secludes image interpreter.profile children)
    (hlike : interpreter.Like children other) :
    ∃ observation, runner.observation last name steps = some observation ∧
      other.observe image (runner.requests name (steps.map Step.block)) = some observation := by
  obtain ⟨final, after, done, hfinal, hafter, -, hrun, hdone⟩ :=
    h.secluded hget hsecludes hlike { world := { world := () } }
  refine ⟨_, congrArg (Option.map _) hfinal, ?_⟩
  rw [Interpreter.observe, hrun]
  dsimp only
  rw [hdone, List.nil_append, hafter.isReady, hafter.spawnCount]

/-- A rendering of blocks is brought to a halt by one of them that is not dispatched to an
interpreter. -/
inductive HaltsElsewhere (host : Host ω σ) (runner : CodeRunner σ) (name : Text) (scene : Scene ω)
    (blocks : List CodeBlock) (reason : Halt) : Prop
  | intro {steps : List (Step ω)} {block : CodeBlock} {rest : List CodeBlock} {mid : CodeRunner σ}
      {between later : Scene ω} (hsteps : Rendering host runner scene steps mid between)
      (hblocks : blocks = steps.map Step.block ++ block :: rest)
      (hother : runner.language block.language ≠ .interpreter name)
      (hhalt : (mid.dispatch host block (mid.workingDir block.fenceOptions)).outcome
        (between.logged (FenceOptions.warnings block.options)) = (.error reason, later)) :
      HaltsElsewhere host runner name scene blocks reason

/-- Where an interpreter without a world runs all blocks of an interpreter, a rendering is not
brought to a halt by one of these, but for a deadline that is too far ahead. -/
theorem Rendering.haltsElsewhere {block : CodeBlock} {rest : List CodeBlock} {reason : Halt}
    {done : Scene (Tape ω)} {observation : Observation}
    (h : Rendering host.overheard runner scene steps last later)
    (hget : runner.interpreters.get? name = some interpreter)
    (hsecludes : host.Secludes image interpreter.profile children)
    (hlike : interpreter.Like children other)
    (hhalt : (last.dispatch host.overheard block (last.workingDir block.fenceOptions)).outcome
      (later.logged (FenceOptions.warnings block.options)) = (.error reason, done))
    (hobserve : other.observe image
      (runner.requests name (steps.map Step.block ++ block :: rest)) = some observation) :
    reason = .clockOverflow ∨ HaltsElsewhere host.overheard runner name scene
      (steps.map Step.block ++ block :: rest) reason := by
  by_cases hlanguage : runner.language block.language = .interpreter name
  · -- Its own block would come to the same halt where the interpreter runs its blocks alone.
    refine .inl (by_contra fun hreason ↦ ?_)
    obtain ⟨final, after, between, hfinal, hafter, hprofile, hrun, -⟩ :=
      h.secluded hget hsecludes hlike { world := { world := () } }
    have hdir : last.workingDir block.fenceOptions = runner.workingDir block.fenceOptions := by
      rw [workingDir, workingDir, h.keeps.1]
    rcases dispatch_halt hhalt with ⟨called, found, hcalled, hfound, hexecute⟩ | ⟨hshell, -⟩
    · rw [h.language_eq] at hcalled
      cases hlanguage.symm.trans hcalled
      cases hfinal.symm.trans hfound
      rw [← hprofile] at hsecludes
      obtain ⟨done, halone⟩ :=
        Interpreter.execute_secluded_halt hsecludes hafter hexecute hreason between
      rw [hdir] at halone
      rw [requests_append, requests_cons_of_eq hlanguage, Interpreter.observe,
        Interpreter.executeAll_halt hrun halone] at hobserve
      cases hobserve
    · rw [h.language_eq] at hshell
      cases hlanguage.symm.trans hshell
  · exact .inr (.intro h rfl hlanguage hhalt)

/-- **Independence.** Where the rendering of blocks comes to its end, what can be seen of an
interpreter whose children are secluded only depends on the bodies and the directories of its own
blocks, in order. It remains the same if other blocks are left out, and if options of blocks are
changed but not their paths. The rendering that is left comes to its end, too, unless one of the
other blocks brings it to a halt, or a deadline is too far ahead. -/
theorem render_observation (henabled : runner.noExec = false)
    (hget : runner.interpreters.get? name = some interpreter)
    (hsecludes : host.Secludes image interpreter.profile children)
    (hlike : interpreter.Like children other) {blocks : List CodeBlock} {out : Text}
    (hrun : (runner.renderSegments host.overheard (blocks.map .code)).outcome scene =
      (.ok (out, last), later)) :
    ∃ steps observation, Rendering host.overheard runner scene steps last later ∧
      steps.map Step.block = blocks ∧ runner.observation last name steps = some observation ∧
      other.observe image (runner.requests name blocks) = some observation ∧
      ∀ rest, runner.Trimmed name blocks rest → ∀ scene' : Scene (Tape ω),
        match (runner.renderSegments host.overheard (rest.map .code)).outcome scene' with
        | (.ok (_, last'), later') =>
          ∃ steps', Rendering host.overheard runner scene' steps' last' later' ∧
            steps'.map Step.block = rest ∧ runner.observation last' name steps' = some observation
        | (.error reason, _) =>
          reason = .clockOverflow ∨
            HaltsElsewhere host.overheard runner name scene' rest reason := by
  obtain ⟨steps, hsteps, hmap, -⟩ := (renderSegments_ensures henabled _ scene).result rfl hrun
  obtain ⟨observation, hobservation, hobserve⟩ := hsteps.observation_eq hget hsecludes hlike
  rw [Segment.blocks_map_code] at hmap
  rw [hmap] at hobserve
  refine ⟨steps, observation, hsteps, hmap, hobservation, hobserve, fun rest htrimmed scene' ↦ ?_⟩
  rw [htrimmed.requests_eq] at hobserve
  rcases hrun' : (runner.renderSegments host.overheard (rest.map .code)).outcome scene' with
    ⟨result, later'⟩
  cases result with
  | ok rendered =>
    obtain ⟨steps', hsteps', hmap', -⟩ :=
      (renderSegments_ensures henabled _ scene').result rfl hrun'
    rw [Segment.blocks_map_code] at hmap'
    obtain ⟨observation', hobservation', hobserve'⟩ := hsteps'.observation_eq hget hsecludes hlike
    rw [hmap', hobserve] at hobserve'
    obtain rfl := Option.some.inj hobserve'
    exact ⟨steps', hsteps', hmap', hobservation'⟩
  | error reason =>
    obtain ⟨steps', block, more, mid, between, hsteps', hblocks, hhalt⟩ :=
      (renderSegments_ensures henabled _ scene').halt rfl hrun'
    rw [Segment.blocks_map_code] at hblocks
    subst hblocks
    exact hsteps'.haltsElsewhere hget hsecludes hlike hhalt hobserve

end CodeRunner

namespace Greeter

/-- Two greetings around a command of the shell. -/
def greetings : List CodeBlock :=
  [⟨"repl".toList, [], "echo hello\n".toList⟩, ⟨"sh".toList, [], "true\n".toList⟩,
    ⟨"repl".toList, ["--no-echo".toList], "echo hello\n".toList⟩]

/-- The greetings alone, of which the other result is hidden. -/
def others : List CodeBlock :=
  [⟨"repl".toList, ["--no-echo".toList], "echo hello\n".toList⟩,
    ⟨"repl".toList, ["--raw".toList], "echo hello\n".toList⟩]

theorem trimmed_greetings :
    (CodeRunner.single profile : CodeRunner (Option Unit)).Trimmed "repl".toList greetings others :=
  .keep _ _ (by decide +kernel) (.drop _ (by decide +kernel) (.keep _ _ (by decide +kernel) .nil))

/-- A scene in which nothing has been told. -/
def silence : Scene (Tape Unit) := { world := { world := () } }

/-- What blocks come to with children that greet. -/
def render (blocks : List CodeBlock) :
    Except Halt (Text × CodeRunner (Option Unit)) × Scene (Tape Unit) :=
  ((CodeRunner.single profile).renderSegments (responder []).host.overheard
    (blocks.map .code)).outcome silence

/-- The interpreter that greets does not notice the difference. -/
theorem render_greetings : ∃ steps last later steps' last' later' observation,
    CodeRunner.Rendering (responder []).host.overheard (.single profile) silence steps last later ∧
    CodeRunner.Rendering (responder []).host.overheard (.single profile) silence steps' last'
      later' ∧
    steps.map CodeRunner.Step.block = greetings ∧ steps'.map CodeRunner.Step.block = others ∧
    (CodeRunner.single profile).observation last "repl".toList steps = some observation ∧
    (CodeRunner.single profile).observation last' "repl".toList steps' = some observation := by
  let interpreter : Interpreter (Option Unit) := { name := "repl".toList, profile }
  have hget : (CodeRunner.single profile).interpreters.get? "repl".toList = some interpreter := rfl
  have hlike : interpreter.Like Eq interpreter := ⟨rfl, rfl, .none, rfl⟩
  have hok : (render greetings).1.toBool = true ∧ (render others).1.toBool = true := by
    decide +kernel
  rcases hrun : render greetings with ⟨result, later⟩
  rw [hrun] at hok
  cases result with
  | error reason => cases hok.1
  | ok rendered =>
    obtain ⟨steps, observation, hsteps, hblocks, hobservation, -, hothers⟩ :=
      CodeRunner.render_observation rfl hget ((responder []).host.secludes_self profile) hlike hrun
    have hrest := hothers others trimmed_greetings silence
    rcases hrun' : render others with ⟨result', later'⟩
    rw [hrun'] at hok
    rw [render] at hrun'
    rw [hrun'] at hrest
    cases result' with
    | error reason => cases hok.2
    | ok rendered' =>
      obtain ⟨steps', hsteps', hblocks', hobservation'⟩ := hrest
      exact ⟨steps, _, later, steps', _, later', observation, hsteps, hsteps', hblocks, hblocks',
        hobservation, hobservation'⟩

/-! ### A block that keeps the others from being run -/

/-- A runner with another interpreter beside the one that greets. -/
def beside (stuck : Profile) : CodeRunner (Option Unit) :=
  .new {} { interpreters := ⟨[("repl".toList, profile), ("stuck".toList, stuck)]⟩ } ['/']

/-- A block of the other interpreter before one that greets. -/
def stuckFirst : List CodeBlock :=
  [⟨"stuck".toList, [], "echo hello\n".toList⟩, ⟨"repl".toList, [], "echo hello\n".toList⟩]

/-- The block that greets alone. -/
def greetingAlone : List CodeBlock := [⟨"repl".toList, [], "echo hello\n".toList⟩]

/-- What keeps blocks from being rendered, if anything does, and what children are told. -/
def heard (stuck : Profile) (blocks : List CodeBlock) : Option Halt × List Telling :=
  let (result, later) := ((beside stuck).renderSegments (responder []).host.overheard
    (blocks.map .code)).outcome silence
  (match result with
    | .ok _ => none
    | .error reason => some reason, later.world.told)

/-- A profile whose answers may take longer than the clock can show. -/
def overdue : Profile := { profile with timeoutSecs := some 18446744073709551615 }

/-- A profile whose answers may take any time, and whose sentinel is never printed. -/
def unanswered : Profile := { profile with echo := "wait".toList }

/-- A block is not run behind one of another interpreter that sets a deadline too far ahead, or that
is waited for without end. Without that block, it is. -/
theorem heard_stuck :
    heard overdue stuckFirst = (some .clockOverflow, [.started]) ∧
    heard unanswered stuckFirst = (some .endlessWait, [.started, .line "wait".toList]) ∧
    ∀ stuck, stuck = overdue ∨ stuck = unanswered →
      (beside stuck).Trimmed "repl".toList stuckFirst greetingAlone ∧
      heard stuck greetingAlone = (none, [.started, .line profile.echoCommand,
        .line "echo hello".toList, .line profile.echoCommand]) := by
  refine ⟨by decide +kernel, by decide +kernel, ?_⟩
  rintro stuck (rfl | rfl)
  · exact ⟨.drop _ (by decide +kernel) (.keep _ _ rfl .nil), by decide +kernel⟩
  · exact ⟨.drop _ (by decide +kernel) (.keep _ _ rfl .nil), by decide +kernel⟩

end Greeter

end Weave
