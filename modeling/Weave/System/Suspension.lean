/-!
# Suspended computations

A computation over a world may have to wait until the world changes, as a process does that reads a
line which has not been written yet. It is then handed back together with the world, and goes on
when it is given a later world.

## Main definitions

* `Weave.Suspension`: a computation that has ended or that waits.
* `Weave.Suspending`: the monad of such computations.
* `Weave.iterate`: a bounded loop.

## Main results

* `Weave.Suspension.bind_assoc`, `Weave.Suspension.bind_done`: what comes after a suspended
  computation is done once it has ended.
-/

namespace Weave

/-- A computation that has ended with a result, or that waits for another world. -/
inductive Suspension (κ α : Type) where
  | done (world : κ) (result : α)
  | waiting (world : κ) (resume : κ → Suspension κ α)

namespace Suspension

variable {κ α β γ : Type}

/-- A computation followed by another one. -/
def bind : Suspension κ α → (κ → α → Suspension κ β) → Suspension κ β
  | done world result, next => next world result
  | waiting world resume, next => waiting world fun later ↦ bind (resume later) next

theorem bind_done (x : Suspension κ α) : x.bind done = x := by
  induction x with
  | done => rfl
  | waiting world resume ih => rw [bind]; exact congrArg _ (funext ih)

theorem bind_assoc (x : Suspension κ α) (f : κ → α → Suspension κ β)
    (g : κ → β → Suspension κ γ) :
    (x.bind f).bind g = x.bind fun world result ↦ (f world result).bind g := by
  induction x with
  | done => rfl
  | waiting world resume ih => simp only [bind]; exact congrArg _ (funext ih)

/-- The world as it is when the computation ends or waits. -/
def world : Suspension κ α → κ
  | done world _ => world
  | waiting world _ => world

end Suspension

/-- A computation that starts in a world and may have to wait. -/
def Suspending (κ α : Type) : Type := κ → Suspension κ α

namespace Suspending

variable {κ α σ : Type}

instance : Monad (Suspending κ) where
  pure result := fun world ↦ .done world result
  bind x f := fun world ↦ (x world).bind fun later result ↦ f result later

instance : MonadStateOf κ (Suspending κ) where
  get := fun world ↦ .done world world
  set world := fun _ ↦ .done world ()
  modifyGet f := fun world ↦ .done (f world).2 (f world).1

/-- Waits for another world. -/
def pause : Suspending κ Unit := fun world ↦ .waiting world fun later ↦ .done later ()

end Suspending

/-- A loop of at most `bound` rounds: a round ends the loop with a result or goes on to the next
one. The loop has no result if the bound is reached. -/
def iterate {m : Type → Type} [Monad m] {σ α : Type} (bound : Nat) (round : σ → m (σ ⊕ α))
    (state : σ) : m (Option α) :=
  match bound with
  | 0 => pure none
  | bound + 1 => do
    match ← round state with
    | .inl state => iterate bound round state
    | .inr result => pure (some result)

end Weave
