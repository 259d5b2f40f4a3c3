import Weave.Run.Task

/-!
# Pre- and postconditions of tasks

From every scene with the precondition, a task comes either to a result, and then the postcondition
holds of the result and of the scene after it, or to a halt, and then what is said of halts holds of
the halt and of the scene in which it comes.

## Main definitions

* `Weave.Task.Ensures`: the condition just described.

## Main results

* `Weave.Task.outcome_bind`: what a task followed by another one comes to.
* `Weave.Task.Ensures.bind`, `Weave.Task.Ensures.bindResult`, `Weave.Task.Ensures.weaken`: sequence
  and consequence.
-/

namespace Weave.Task

variable {ω α β : Type}

/-! ### Outcomes -/

@[simp] theorem outcome_pure (a : α) (scene : Scene ω) :
    (pure a : Task ω α).outcome scene = (.ok a, scene) := rfl

/-- A task followed by another one: the second one starts where the first one ended, unless that
came to a halt. -/
theorem outcome_bind (task : Task ω α) (next : α → Task ω β) (scene : Scene ω) :
    (task >>= next).outcome scene =
      match task.outcome scene with
      | (.ok a, later) => (next a).outcome later
      | (.error reason, later) => (.error reason, later) := by
  unfold outcome ExceptT.run StateT.run
  simp only [bind, ExceptT.bind, ExceptT.mk, StateT.bind, ExceptT.bindCont]
  cases task scene with
  | mk result later => cases result <;> rfl

@[simp] theorem outcome_halt (reason : Halt) (scene : Scene ω) :
    (halt reason : Task ω α).outcome scene = (.error reason, scene) := rfl

@[simp] theorem outcome_world (scene : Scene ω) :
    (world : Task ω ω).outcome scene = (.ok scene.world, scene) := rfl

@[simp] theorem outcome_emit (event : Event) (scene : Scene ω) :
    (emit event : Task ω Unit).outcome scene =
      (.ok (), { scene with log := scene.log ++ [event] }) := rfl

@[simp] theorem outcome_act (change : ω → α × ω) (scene : Scene ω) :
    (act change).outcome scene =
      (.ok (change scene.world).1, { scene with world := (change scene.world).2 }) := rfl

/-- What is waited for without end brings the run to a halt, in the world in which it is waited
for. -/
theorem outcome_await (reason : Halt) (change : ω → Option α × ω) (scene : Scene ω) :
    (await reason change).outcome scene =
      (match (change scene.world).1 with
        | some a => .ok a
        | none => .error reason,
      { scene with world := (change scene.world).2 }) := by
  rw [await, outcome_bind, outcome_act]
  cases (change scene.world).1 <;> rfl

/-! ### Conditions -/

/-- From every scene that satisfies `pre`, the task comes to a result that satisfies `post` together
with the scene after it, or to a halt that satisfies `halted` together with its scene. -/
def Ensures (pre : Scene ω → Prop) (task : Task ω α) (post : α → Scene ω → Prop)
    (halted : Halt → Scene ω → Prop) : Prop :=
  ∀ scene, pre scene →
    match task.outcome scene with
    | (.ok a, later) => post a later
    | (.error reason, later) => halted reason later

variable {pre : Scene ω → Prop} {post : α → Scene ω → Prop} {halted : Halt → Scene ω → Prop}

namespace Ensures

/-- What a task that satisfies a condition has done when it has come to a result. -/
theorem result {task : Task ω α} (h : Ensures pre task post halted) {scene later : Scene ω} {a : α}
    (hpre : pre scene) (hrun : task.outcome scene = (.ok a, later)) : post a later := by
  have hscene := h scene hpre
  rwa [hrun] at hscene

/-- What a task that satisfies a condition has done when it has come to a halt. -/
theorem halt {task : Task ω α} (h : Ensures pre task post halted) {scene later : Scene ω}
    {reason : Halt} (hpre : pre scene) (hrun : task.outcome scene = (.error reason, later)) :
    halted reason later := by
  have hscene := h scene hpre
  rwa [hrun] at hscene

theorem pure {a : α} (h : ∀ scene, pre scene → post a scene) :
    Ensures pre (Pure.pure a) post halted := h

theorem emit {event : Event} {post : Unit → Scene ω → Prop}
    (h : ∀ scene, pre scene → post () { scene with log := scene.log ++ [event] }) :
    Ensures pre (Task.emit event) post halted := h

/-- What is said of the world is not changed by an event. -/
theorem emit_world (said : ω → Prop) (event : Event) :
    Ensures (fun scene ↦ said scene.world) (Task.emit event) (fun _ scene ↦ said scene.world)
      halted := emit fun _ hscene ↦ hscene

theorem bind {task : Task ω α} {next : α → Task ω β} {mid : α → Scene ω → Prop}
    {post : β → Scene ω → Prop} (h : Ensures pre task mid halted)
    (hnext : ∀ a, Ensures (mid a) (next a) post halted) :
    Ensures pre (task >>= next) post halted := by
  intro scene hpre
  rw [outcome_bind]
  rcases hrun : task.outcome scene with ⟨result, later⟩
  cases result with
  | ok a => exact hnext a later (h.result hpre hrun)
  | error reason => exact h.halt hpre hrun

/-- A sequence in which only the result of the first task matters. -/
theorem bindResult {task : Task ω α} {next : α → Task ω β} {fact : α → Prop}
    {post : β → Scene ω → Prop} (h : Ensures (fun _ ↦ True) task (fun a _ ↦ fact a) halted)
    (hnext : ∀ a, fact a → Ensures (fun _ ↦ True) (next a) post halted) :
    Ensures (fun _ ↦ True) (task >>= next) post halted :=
  h.bind fun a scene hfact ↦ hnext a hfact scene trivial

/-- What a precondition says beside the scene may be assumed. -/
theorem assume {task : Task ω α} {fact : Prop} (h : fact → Ensures pre task post halted) :
    Ensures (fun scene ↦ pre scene ∧ fact) task post halted :=
  fun scene hscene ↦ h hscene.2 scene hscene.1

theorem weaken {task : Task ω α} {pre' : Scene ω → Prop} {post' : α → Scene ω → Prop}
    {halted' : Halt → Scene ω → Prop} (h : Ensures pre task post halted)
    (hpre : ∀ scene, pre' scene → pre scene) (hpost : ∀ a scene, post a scene → post' a scene)
    (hhalted : ∀ reason scene, halted reason scene → halted' reason scene) :
    Ensures pre' task post' halted' := by
  intro scene hscene
  rcases hrun : task.outcome scene with ⟨result, later⟩
  cases result with
  | ok a => exact hpost a later (h.result (hpre scene hscene) hrun)
  | error reason => exact hhalted reason later (h.halt (hpre scene hscene) hrun)

end Ensures

end Weave.Task
