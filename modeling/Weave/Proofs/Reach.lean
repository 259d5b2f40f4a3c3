import Weave.Proofs.Deadline

/-!
# The states of an interpreter

The states that an interpreter comes to when blocks are run in it and it is stopped, in any order.

## Main definitions

* `Weave.Interpreter.Reaches`: the states between two calls.
* `Weave.Interpreter.executeAll`: several blocks, one after the other.

## Main results

* `Weave.Interpreter.Reaches.sound`: an interpreter keeps its name and its profile, and is only
  ready if its marker is part of a line.
-/

namespace Weave.Interpreter

variable {ω σ : Type}

/-- The states between two calls of an interpreter that is new in the scene `first`, with the scene
that the calls so far have left. The list holds the commands that the running session has answered,
in order; it is empty if no session is running. -/
inductive Reaches (host : Host ω σ) (name : Text) (profile : Profile) (first : Scene ω) :
    Interpreter σ → Scene ω → List Text → Prop
  | new : Reaches host name profile first { name, profile } first []
  | execute {interpreter next : Interpreter σ} {scene later : Scene ω} {commands : List Text}
      {result : Except Error Text} (body dir : Text)
      (h : Reaches host name profile first interpreter scene commands)
      (hrun : (interpreter.execute host body dir).outcome scene = (.ok (result, next), later)) :
      Reaches host name profile first next later
        (if next.isReady then commands ++ [profile.commandLine dir body] else [])
  | stop {interpreter next : Interpreter σ} {scene later : Scene ω} {commands : List Text}
      (h : Reaches host name profile first interpreter scene commands)
      (hrun : (interpreter.stop host).outcome scene = (.ok next, later)) :
      Reaches host name profile first next later []

theorem Reaches.sound {host : Host ω σ} {name : Text} {profile : Profile} {first scene : Scene ω}
    {interpreter : Interpreter σ} {commands : List Text}
    (h : Reaches host name profile first interpreter scene commands) :
    interpreter.name = name ∧ interpreter.profile = profile ∧ interpreter.Sound := by
  induction h with
  | new => exact ⟨rfl, rfl, sound_of_none rfl⟩
  | @execute interpreter _ _ _ _ result body dir _ hrun ih =>
    obtain ⟨rfl, rfl, hsound⟩ := ih
    have hexecutes := (interpreter.execute_exits host body dir).of_outcome hrun
    obtain ⟨hname, hprofile⟩ := hexecutes.keeps
    exact ⟨hname, hprofile, hexecutes.sound hsound⟩
  | @stop interpreter _ _ _ _ _ hrun ih =>
    obtain ⟨rfl, rfl, -⟩ := ih
    obtain rfl := ((interpreter.stop_exits host).of_outcome hrun).eq
    exact ⟨rfl, rfl, sound_of_none rfl⟩

/-- Runs blocks, each in a directory, one after the other. -/
def executeAll (host : Host ω σ) (interpreter : Interpreter σ) :
    List (Text × Text) → Task ω (List (Except Error Text) × Interpreter σ)
  | [] => return ([], interpreter)
  | (body, dir) :: calls => do
    let (result, next) ← interpreter.execute host body dir
    let (results, last) ← next.executeAll host calls
    return (result :: results, last)

/-- The states that blocks in a row lead to are reached. -/
theorem executeAll_reaches {host : Host ω σ} {name : Text} {profile : Profile} {first : Scene ω}
    {interpreter : Interpreter σ} (calls : List (Text × Text)) :
    Task.Ensures
      (fun scene ↦ ∃ commands, Reaches host name profile first interpreter scene commands)
      (interpreter.executeAll host calls)
      (fun answered later ↦ ∃ commands, Reaches host name profile first answered.2 later commands)
      (fun _ _ ↦ True) := by
  induction calls generalizing interpreter with
  | nil => exact .pure fun _ h ↦ h
  | cons call calls ih =>
    have hexecute : Task.Ensures
        (fun scene ↦ ∃ commands, Reaches host name profile first interpreter scene commands)
        (interpreter.execute host call.1 call.2)
        (fun answered later ↦ ∃ commands, Reaches host name profile first answered.2 later commands)
        (fun _ _ ↦ True) := by
      rintro scene ⟨commands, h⟩
      rcases hrun : (interpreter.execute host call.1 call.2).outcome scene with ⟨_ | _, _⟩
      · trivial
      · exact ⟨_, .execute call.1 call.2 h hrun⟩
    exact hexecute.bind fun _ ↦ ih.bind fun _ ↦ .pure fun _ h ↦ h

end Weave.Interpreter
