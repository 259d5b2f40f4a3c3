import Weave.Proofs.Exits
import Weave.Proofs.Printed

/-!
# Calls that are cut short

A call of an interpreter is cut short when it sets a deadline that the clock cannot show, or when
the name of the interpreter cannot be given to the reader of its output. Nothing else keeps it from
coming to a result but something that is waited for and never comes.

## Main definitions

* `Weave.Profile.IsSafe`: profiles for which no call is cut short.
* `Weave.Host.Overruns`: the hosts with which one may be.
* `Weave.Host.Hangs`: what may be waited for without end.
* `Weave.Interpreter.Sound`: what holds of an interpreter that is ready.

## Main results

* `Weave.Interpreter.Executes.halt`, `Weave.Interpreter.Stops.halt`: a call that does not come to a
  result has been cut short, or waits without end.
* `Weave.Interpreter.Executes.sound`: only markers that are part of a line make a session ready.
-/

namespace Weave

variable {ω σ : Type} {host : Host ω σ} {name : Text} {profile : Profile} {w later : ω}
  {reason : Halt}

/-- Nothing cuts a call of an interpreter short while the clock shows at most `now`: its name can be
given to the reader of its output, and the clock can show every deadline that its profile sets. The
last deadline is only set for a session that has become ready, which none does whose marker holds a
line feed. -/
structure Profile.IsSafe (profile : Profile) (name : Text) (now : Nat) : Prop where
  name : '\x00' ∉ name
  clock : now ≤ Session.lastSecond
  answer : ∀ seconds, profile.timeoutSecs = some seconds → now + seconds ≤ Session.lastSecond
  shutdown : '\n' ∉ profile.readyMarker → now + profile.shutdownTimeoutSecs ≤ Session.lastSecond

namespace Host

/-- The profile is not safe up to any moment that the clock of the host never passes. -/
def Overruns (host : Host ω σ) (name : Text) (profile : Profile) : Prop :=
  ∀ now, (∀ world, host.clock world ≤ now) → ¬profile.IsSafe name now

/-- Something is waited for in a world that never comes. -/
inductive Hangs (host : Host ω σ) (profile : Profile) (world : ω) : Halt → Prop
  /-- The child has taken a line and goes on, and its answer may take any time. -/
  | answer {before : ω} {child : σ} {line : Text} {reaction : Reaction σ}
      (h : host.send before child line profile.timeoutSecs = (some (.taken reaction), world))
      (hended : reaction.ended = false) (hseconds : profile.timeoutSecs = none) :
      Hangs host profile world .endlessWait
  /-- The child does not take the line, or prints on and on in reply. -/
  | turn {before : ω} {child : σ} {line : Text}
      (h : host.send before child line profile.timeoutSecs = (none, world)) :
      Hangs host profile world .endlessTurn
  /-- What the child has left behind prints on and on. -/
  | finish {before : ω} {child : σ} {grace : Nat}
      (h : host.finish before child grace = (none, world)) :
      Hangs host profile world .endlessEnd
  /-- The child that has been killed does not end. -/
  | kill {before : ω} {child : σ} (h : host.kill before child = (none, world)) :
      Hangs host profile world .endlessEnd

theorem Overruns.of_name (h : '\x00' ∈ name) : host.Overruns name profile :=
  fun _ _ hsafe ↦ hsafe.name h

theorem Overruns.of_not_showsDeadline (h : ¬host.ShowsDeadline w profile) :
    host.Overruns name profile := by
  refine fun now hclock hsafe ↦ h fun seconds hseconds ↦ ?_
  exact Nat.le_trans (Nat.add_le_add_right (hclock w) seconds) (hsafe.answer seconds hseconds)

/-- A deadline that a safe profile allows is never too far ahead. -/
theorem Overruns.of_not_shows {seconds : Nat} (h : ¬host.Shows w seconds)
    (hsafe : ∀ now, profile.IsSafe name now → now + seconds ≤ Session.lastSecond) :
    host.Overruns name profile := by
  refine fun now hclock hnow ↦ h ?_
  exact Nat.le_trans (Nat.add_le_add_right (hclock w) seconds) (hsafe now hnow)

end Host

/-! ### Sessions -/

namespace Session

variable {session next : Session σ} {answer : Text}

theorem Sends.hangs {line : Text}
    (h : Sends host name profile session line w (.error reason) later) :
    host.Hangs profile later reason := by
  cases h with
  | endless h => exact .turn h

theorem Synchronizes.hangs
    (h : Synchronizes host name profile session w (.error reason) later) :
    host.Hangs profile later reason := by
  cases h with
  | halted h => exact h.hangs
  | read hsends hreads =>
    cases hsends with
    | @taken reaction _ h =>
      cases hreads with
      | endless _ hended hseconds =>
        rw [absorb_ended, Bool.or_eq_false_iff] at hended
        exact .answer h hended.1 hseconds

/-- Only a deadline that is too far ahead cuts closing short. -/
theorem Closes.halt {grace : Nat} (h : Closes host grace session w (.error reason) later)
    (hsafe : ∀ now, profile.IsSafe name now → now + grace ≤ lastSecond) :
    host.Hangs profile later reason ∨ host.Overruns name profile := by
  cases h with
  | late hlate => exact .inr (.of_not_shows hlate hsafe)
  | endless _ h => exact .inl (.finish h)

theorem Starts.halt (h : Starts host name profile w (.error reason) later) :
    host.Hangs profile later reason ∨ host.Overruns name profile := by
  cases h with
  | undying _ _ hkill => exact .inl (.kill hkill)
  | unnamed _ _ hname => exact .inr (.of_name hname)
  | late _ _ hshows => exact .inr (.of_not_showsDeadline hshows)
  | halted _ _ _ hsync => exact .inl hsync.hangs
  | unclosed _ _ _ _ hcloses => exact hcloses.halt fun _ hsafe ↦ hsafe.clock

theorem Requests.halt {command : Text}
    (h : Requests host name profile command session w (.error reason) later) :
    host.Hangs profile later reason ∨ host.Overruns name profile := by
  cases h with
  | late hshows => exact .inr (.of_not_showsDeadline hshows)
  | untaken _ hsends =>
    cases hsends with
    | sent _ h => exact .inl h.hangs
  | halted _ _ hsync => exact .inl hsync.hangs

/-- A tidy session is only synchronized if its marker is part of a line. -/
theorem Synchronizes.lineFeed_notMem (htidy : session.Tidy)
    (h : Synchronizes host name profile session w (.ok (.ok answer, next)) later) :
    '\n' ∉ profile.readyMarker := by
  cases h with
  | read hsends hreads =>
    cases hsends with
    | taken _ =>
      cases hreads with
      | @answered _ rest hcollect =>
        obtain ⟨before, line, hqueue, -, hline, -⟩ := collect?_eq_some_iff.mp hcollect
        have hmem : line ∈ before ++ line :: rest := List.mem_append_right _ List.mem_cons_self
        exact fun hfeed ↦
          (htidy.absorb _).queue line (hqueue ▸ hmem) (Text.mem_of_holds hline hfeed)

/-- What a child prints at its start is taken in by a tidy session. -/
theorem tidy_absorb_new (reaction : Reaction σ) :
    (absorb { child := reaction.child } reaction).Tidy :=
  Tidy.absorb ⟨by simp, by simp⟩ reaction

/-- A session only starts if its marker is part of a line. -/
theorem Starts.lineFeed_notMem (h : Starts host name profile w (.ok (.ok session)) later) :
    '\n' ∉ profile.readyMarker := by
  cases h with
  | @ready reaction _ _ _ _ _ _ _ hsync => exact hsync.lineFeed_notMem (tidy_absorb_new reaction)

end Session

/-! ### Interpreters -/

namespace Interpreter

variable {interpreter next : Interpreter σ} {session : Session σ} {body dir answer : Text}

/-- The marker of an interpreter that is ready is part of a line. -/
def Sound (interpreter : Interpreter σ) : Prop :=
  interpreter.isReady = true → '\n' ∉ interpreter.profile.readyMarker

theorem sound_of_none (h : interpreter.session = none) : interpreter.Sound := by
  intro hready
  rw [isReady, h] at hready
  cases hready

theorem Sound.of_some (h : interpreter.Sound) (hsession : interpreter.session = some session) :
    '\n' ∉ interpreter.profile.readyMarker :=
  h (by rw [isReady, hsession]; rfl)

theorem Stops.halt (h : Stops host interpreter w (.error reason) later)
    (hsound : interpreter.Sound) :
    host.Hangs interpreter.profile later reason ∨
      host.Overruns interpreter.name interpreter.profile := by
  cases h with
  | halted hsession hcloses =>
    exact hcloses.halt fun _ hsafe ↦ hsafe.shutdown (hsound.of_some hsession)

theorem Readies.lineFeed_notMem (h : Readies host interpreter w (.ok (.ok session, next)) later)
    (hsound : interpreter.Sound) : '\n' ∉ interpreter.profile.readyMarker := by
  cases h with
  | running hsession => exact hsound.of_some hsession
  | started _ hstarts => exact hstarts.lineFeed_notMem

/-- A block that does not come to a result has been cut short, or waits without end. -/
theorem Executes.halt (h : Executes host interpreter body dir w (.error reason) later)
    (hsound : interpreter.Sound) :
    host.Hangs interpreter.profile later reason ∨
      host.Overruns interpreter.name interpreter.profile := by
  cases h with
  | unstarted hreadies =>
    cases hreadies with
    | halted _ hstarts => exact hstarts.halt
  | halted hreadies hrequests =>
    obtain rfl := hreadies.eq_of_ok
    exact hrequests.halt
  | unstopped hreadies _ hstops =>
    have hmarker := hreadies.lineFeed_notMem hsound
    obtain rfl := hreadies.eq_of_ok
    exact hstops.halt fun _ ↦ hmarker

/-- A block leaves an interpreter sound. -/
theorem Executes.sound {result : Except Error Text}
    (h : Executes host interpreter body dir w (.ok (result, next)) later)
    (hsound : interpreter.Sound) : next.Sound := by
  cases result with
  | ok answer =>
    cases h with
    | answered hreadies _ =>
      have hmarker := hreadies.lineFeed_notMem hsound
      obtain rfl := hreadies.eq_of_ok
      exact fun _ ↦ hmarker
  | error e => rcases h.eq_of_error with ⟨rfl, -⟩ | rfl <;> exact sound_of_none rfl

end Interpreter

end Weave
