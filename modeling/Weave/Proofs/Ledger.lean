import Weave.Proofs.Notes

/-!
# Ledgers

What is done to the children of a host can be written down: which child is started, and which is
closed or killed.

## Main definitions

* `Weave.Deed`, `Weave.Deed.history`: what is done to children.
* `Weave.Host.recorded`: the host that writes it down.

## Main results

* `Weave.Deed.Orderly.single`: if children are closed one after the other, at most one of them is
  live at any time.
* `Weave.Host.recorded_notes`: with the ledger, children do the same as without.
* `Weave.Host.recorded_start`, `Weave.Host.recorded_send`: what is written down.
-/

namespace Weave

variable {ω σ : Type}

/-! ### Deeds -/

/-- Something that is done to a child. -/
inductive Deed where
  | started (child : Nat)
  | closed (child : Nat)
  deriving Repr, DecidableEq

namespace Deed

/-- The number of children that have been started. -/
def starts (deeds : List Deed) : Nat := deeds.countP fun
  | started _ => true
  | closed _ => false

/-- What a deed does to the list of the children that are live. -/
def apply (live : List Nat) : Deed → List Nat
  | started child => live ++ [child]
  | closed child => live.erase child

/-- The children that have been started and not yet closed. -/
def live (deeds : List Deed) : List Nat := deeds.foldl apply []

/-- The first children have been started and closed, each of them once and before the next one was
started. -/
def history : Nat → List Deed
  | 0 => []
  | n + 1 => history n ++ [started n, closed n]

/-- At no time is more than one child live. -/
def Single (deeds : List Deed) : Prop := ∀ past, past <+: deeds → (live past).length ≤ 1

@[simp] theorem starts_history (n : Nat) : starts (history n) = n := by
  induction n with
  | zero => rfl
  | succ n ih => rw [history, starts, List.countP_append, ← starts, ih]; rfl

@[simp] theorem starts_history_append (n : Nat) : starts (history n ++ [started n]) = n + 1 := by
  rw [starts, List.countP_append, ← starts, starts_history]; rfl

theorem live_history (n : Nat) : live (history n) = [] := by
  induction n with
  | zero => rfl
  | succ n ih => rw [history, live, List.foldl_append, ← live, ih]; simp [apply]

theorem live_history_append (n : Nat) : live (history n ++ [started n]) = [n] := by
  rw [live, List.foldl_append, ← live, live_history]; rfl

/-- At any time in a history, the first children have been closed and at most the one after them is
live. -/
theorem prefix_history {n : Nat} {past : List Deed} (h : past <+: history n) :
    ∃ k, past = history k ∨ past = history k ++ [started k] := by
  induction n with
  | zero => exact ⟨0, .inl (List.prefix_nil.mp h)⟩
  | succ n ih =>
    rw [history, ← List.singleton_append, ← List.append_assoc] at h
    rcases List.prefix_concat_iff.mp h with h | h
    · refine ⟨n + 1, .inl ?_⟩
      rw [h, history, List.append_assoc]
      rfl
    rcases List.prefix_concat_iff.mp h with h | h
    · exact ⟨n, .inr h⟩
    · exact ih h

/-- The first children have been started and closed one after the other, but for the last of them,
which may be live. -/
def Orderly (deeds : List Deed) : Prop :=
  ∃ n, deeds = history n ∨ deeds = history n ++ [started n]

theorem Orderly.single {deeds : List Deed} (h : Orderly deeds) : Single deeds := by
  intro past hpast
  have hpast : ∃ k, past = history k ∨ past = history k ++ [started k] := by
    obtain ⟨n, rfl | rfl⟩ := h
    · exact prefix_history hpast
    · rcases List.prefix_concat_iff.mp hpast with hpast | hpast
      · exact ⟨n, .inr hpast⟩
      · exact prefix_history hpast
  obtain ⟨k, rfl | rfl⟩ := hpast
  · simp [live_history]
  · simp [live_history_append]

end Deed

/-! ### Recorded hosts -/

/-- The same reaction of another child. -/
def Reaction.map {σ' : Type} (f : σ → σ') (reaction : Reaction σ) : Reaction σ' :=
  { reaction with child := f reaction.child }

/-- The same launch of another child. -/
def Launch.map {σ' : Type} (f : σ → σ') : Launch σ → Launch σ'
  | .failed reason => .failed reason
  | .uncaptured child => .uncaptured (f child)
  | .unread child reason => .unread (f child) reason
  | .running reaction => .running (reaction.map f)

/-- The same delivery to another child. -/
def Delivery.map {σ' : Type} (f : σ → σ') : Delivery σ → Delivery σ'
  | .taken reaction => .taken (reaction.map f)
  | .closed => .closed
  | .failed reason => .failed reason

@[simp] theorem Launch.child?_map {σ' : Type} (f : σ → σ') (launch : Launch σ) :
    (launch.map f).child? = launch.child?.map f := by
  cases launch <;> rfl

/-- A world, and what has been done to children in it. -/
structure Ledger (ω : Type) where
  world : ω
  deeds : List Deed := []

namespace Host

/-- The host that numbers its children and writes down when one is started, and when it is closed or
killed. -/
def recorded (host : Host ω σ) : Host (Ledger ω) (Nat × σ) where
  clock ledger := host.clock ledger.world
  readText ledger := host.readText ledger.world
  isDirectory ledger := host.isDirectory ledger.world
  runCommand ledger program args dir :=
    let (result, world) := host.runCommand ledger.world program args dir
    (result, { ledger with world })
  start ledger program args allowed :=
    let number := Deed.starts ledger.deeds
    let (launch, world) := host.start ledger.world program args allowed
    (launch.map (number, ·),
      { world, deeds := ledger.deeds ++ (launch.child?.map fun _ ↦ .started number).toList })
  send ledger child line allowed :=
    let (delivery, world) := host.send ledger.world child.2 line allowed
    (delivery.map (Delivery.map (child.1, ·)), { ledger with world })
  finish ledger child grace :=
    let (ending, world) := host.finish ledger.world child.2 grace
    (ending, { world, deeds := ledger.deeds ++ [.closed child.1] })
  kill ledger child :=
    let (killed, world) := host.kill ledger.world child.2
    (killed, { world, deeds := ledger.deeds ++ [.closed child.1] })

variable {host : Host ω σ} {ledger later : Ledger ω} {allowed : Option Nat}

/-- With the ledger, children do the same as without. -/
theorem recorded_notes (host : Host ω σ) :
    host.recorded.Notes host Ledger.world Prod.snd := fun profile ↦
  { clock_le := by
      rintro ledger _ rfl
      exact Nat.le_refl _
    clock_ge := by
      rintro - ledger _ rfl
      exact Nat.le_refl _
    start := by
      rintro ledger _ rfl
      refine ⟨?_, rfl⟩
      unfold recorded
      dsimp only
      generalize (host.start ledger.world profile.command profile.args profile.timeoutSecs).1 =
        launch
      cases launch with
      | failed reason => exact .failed reason
      | uncaptured child => exact .uncaptured (by rfl)
      | unread child reason => exact .unread (by rfl) reason
      | running reaction => exact .running ⟨rfl, rfl, rfl⟩
    send := by
      rintro ledger _ child _ line rfl rfl
      refine ⟨?_, rfl⟩
      unfold recorded
      dsimp only
      generalize (host.send ledger.world child.2 line profile.timeoutSecs).1 = delivery
      rcases delivery with _ | _ | _ | reason
      · exact .none
      · exact .some (.taken ⟨rfl, rfl, rfl⟩)
      · exact .some .closed
      · exact .some (.failed reason)
    finish := by
      rintro ledger _ child _ grace rfl rfl
      refine ⟨?_, rfl⟩
      change Option.Rel _ (host.finish ledger.world child.2 grace).1 _
      cases (host.finish ledger.world child.2 grace).1 with
      | none => exact .none
      | some ending => exact .some fun _ ↦ rfl
    kill := by
      rintro ledger _ child _ rfl rfl
      exact ⟨rfl, rfl⟩ }

theorem recorded_start_eq {program : Text} {args : List Text} {launch : Launch σ} {world : ω}
    {numbered : Launch (Nat × σ)}
    (h : host.start ledger.world program args allowed = (launch, world))
    (hrecorded : host.recorded.start ledger program args allowed = (numbered, later)) :
    numbered = launch.map (Deed.starts ledger.deeds, ·) ∧ later.world = world := by
  have hlaunch := congrArg (fun started ↦ started.1.map (Deed.starts ledger.deeds, ·)) h
  have hworld := congrArg Prod.snd h
  exact ⟨(congrArg Prod.fst hrecorded).symm.trans hlaunch,
    (congrArg (·.2.world) hrecorded).symm.trans hworld⟩

/-- A child that is started gets the number of those before it. -/
theorem recorded_start {program : Text} {args : List Text} {launch : Launch (Nat × σ)}
    (h : host.recorded.start ledger program args allowed = (launch, later)) :
    later.deeds =
        ledger.deeds ++ (launch.child?.map fun _ ↦ .started (Deed.starts ledger.deeds)).toList ∧
      ∀ child, launch.child? = some child → child.1 = Deed.starts ledger.deeds := by
  obtain ⟨rfl, rfl⟩ := Prod.mk.inj h
  rw [Launch.child?_map, Option.map_map]
  refine ⟨rfl, fun child hchild ↦ ?_⟩
  obtain ⟨_, -, rfl⟩ := Option.map_eq_some_iff.mp hchild
  rfl

/-- Nothing is written down when a child is sent a line, and the child keeps its number. -/
theorem recorded_send {child : Nat × σ} {line : Text} {delivery : Option (Delivery (Nat × σ))}
    (h : host.recorded.send ledger child line allowed = (delivery, later)) :
    later.deeds = ledger.deeds ∧
      ∀ reaction, delivery = some (.taken reaction) → reaction.child.1 = child.1 := by
  obtain ⟨rfl, rfl⟩ := Prod.mk.inj h
  refine ⟨rfl, fun reaction htaken ↦ ?_⟩
  obtain ⟨found, -, htaken⟩ := Option.map_eq_some_iff.mp htaken
  cases found <;> cases htaken
  rfl

theorem recorded_finish {child : Nat × σ} {grace : Nat} {ending : Option Ending}
    (h : host.recorded.finish ledger child grace = (ending, later)) :
    later.deeds = ledger.deeds ++ [.closed child.1] := by
  obtain ⟨rfl, rfl⟩ := Prod.mk.inj h
  rfl

theorem recorded_kill {child : Nat × σ} {killed : Option Unit}
    (h : host.recorded.kill ledger child = (killed, later)) :
    later.deeds = ledger.deeds ++ [.closed child.1] := by
  obtain ⟨rfl, rfl⟩ := Prod.mk.inj h
  rfl

end Host

end Weave
