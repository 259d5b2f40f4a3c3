import Weave.Proofs.Lifecycle
import Weave.Proofs.Responder

/-!
# Profiles that are safe

The sessions of an interpreter live as they should, whatever the children do, exactly if its profile
is safe: for every profile that is not, there is a child with which a call is cut short and leaves
the child behind.

## Main definitions

* `Weave.Responder.herald`: a child that says one line and exits when it is sent one.

## Main results

* `Weave.Responder.not_hangs_herald`: nothing that such a child does is waited for without end.
* `Weave.Interpreter.Executes.isSafe`: if a first call comes to a result with such a child that says
  the marker, the profile is safe.
* `Weave.isSafe_iff_lifecycle`: safe profiles are those whose sessions live as they should.
-/

namespace Weave

variable {σ : Type} {name : Text} {profile : Profile} {now : Nat} {line : Line}

/-! ### A child that breaks a session -/

/-- A child that prints a line when it is started, and exits when it is sent one. -/
def Responder.herald (line : Line) : Responder Unit where
  banner := [line]
  initial := ()
  reply _ _ := .exit []

/-- Nothing that the child does is waited for without end. -/
theorem Responder.not_hangs_herald (world : Unit) (reason : Halt) :
    ¬((herald line).hostAt now).Hangs profile world reason := by
  intro hhangs
  cases hhangs with
  | @answer _ child _ _ h hended _ =>
    cases child with
    | none => cases h
    | some s =>
      cases h
      cases hended
  | @turn _ child _ h => cases child <;> cases h
  | finish h => cases h
  | kill h => cases h

theorem Responder.herald_echoes (line : Line) (profile : Profile) :
    (herald line).Echoes profile := fun _ _ hmem ↦ absurd hmem List.not_mem_nil

/-- A marker without line feeds is part of a line. -/
theorem Line.exists_holds {marker : Text} (h : '\n' ∉ marker) :
    ∃ line : Line, Text.holds marker line.text = true := by
  have hfeed : '\n' ∉ marker ++ ['.'] := by simp [h]
  refine ⟨.ofText (marker ++ ['.']) hfeed, ?_⟩
  rw [Line.text_ofText hfeed (by simp)]
  exact Text.holds_append _ _

/-- A line that holds the marker, if there are such lines. -/
theorem Line.exists_marks (profile : Profile) :
    ∃ line : Line, '\n' ∉ profile.readyMarker → profile.marks line = true := by
  by_cases hmarker : '\n' ∉ profile.readyMarker
  · obtain ⟨line, hline⟩ := Line.exists_holds hmarker
    exact ⟨line, fun _ ↦ hline⟩
  · exact ⟨⟨[], List.not_mem_nil⟩, fun h ↦ absurd h hmarker⟩

/-! ### Its first call -/

section Herald

variable (hline : '\n' ∉ profile.readyMarker → profile.marks line = true) {w later : Unit}
  {interpreter next : Interpreter (Option Unit)} {body dir : Text}

/-- The child is only closed at once if the marker is no part of a line. -/
theorem Session.Starts.lineFeed_mem (hline : '\n' ∉ profile.readyMarker → profile.marks line = true)
    {e : Error}
    (h : Starts ((Responder.herald line).hostAt now) name profile w (.ok (.error e)) later) :
    '\n' ∈ profile.readyMarker := by
  by_contra hmarker
  have hplays := (Responder.herald line).hostAt_plays now profile
  cases h with
  | failed hstart => cases hstart
  | discarded hstart hlaunch _ =>
    cases hstart
    cases hlaunch
  | unready hstart _ _ hsync _ =>
    obtain ⟨child, ⟨rfl⟩, hfollows⟩ := follows_of_start hplays hstart
    cases hsync with
    | unsent hsends => cases (hsends.follows hplays hfollows).1
    | read hsends hreads =>
      exact hreads.not_marks (hsends.follows hplays hfollows)
        ⟨line, List.mem_append_left _ List.mem_cons_self, hline hmarker⟩

/-- A first call that comes to a result has set every deadline that the profile allows: the child
becomes ready if its marker is part of a line, and exits before the block is answered. -/
theorem Interpreter.Executes.isSafe (hprofile : interpreter.profile = profile)
    (hline : '\n' ∉ profile.readyMarker → profile.marks line = true)
    (hnone : interpreter.session = none) {result : Except Error Text}
    (h : Executes ((Responder.herald line).hostAt now) interpreter body dir w (.ok (result, next))
      later) : profile.IsSafe interpreter.name now := by
  subst hprofile
  have hplays := (Responder.herald line).hostAt_plays now interpreter.profile
  have hechoes := Responder.herald_echoes line interpreter.profile
  have hfollows : interpreter.Follows id (none : Option (List Line × Option Unit)) := hnone
  cases h with
  | unready hreadies =>
    cases hreadies with
    | failed _ hstarts =>
      have hfeed := hstarts.lineFeed_mem hline
      cases hstarts with
      | failed hstart => cases hstart
      | discarded hstart hlaunch _ =>
        cases hstart
        cases hlaunch
      | unready _ hname hshows _ hcloses =>
        cases hcloses with
        | closed hclock _ => exact ⟨hname, hclock, hshows, fun hnot ↦ absurd hfeed hnot⟩
  | answered hreadies hrequests =>
    -- The one line that holds the marker has been taken.
    obtain ⟨hmarker, hsession⟩ := hreadies.follows hechoes hplays hfollows
    obtain rfl := hreadies.eq_of_ok
    obtain ⟨⟨l, hmem, -⟩, -⟩ := hrequests.follows hechoes hplays hsession
    have hnil : Profile.behind interpreter.profile [line] = [] := by
      simp [Profile.behind, hline hmarker]
    simp [Responder.resumed, Responder.opening, Responder.feed, Responder.herald, hnil] at hmem
  | failed hreadies _ hstops =>
    cases hreadies with
    | running hsession => cases hnone.symm.trans hsession
    | started _ hstarts =>
      cases hstarts with
      | ready _ hname hshows _ =>
        cases hstops with
        | idle hidle => cases hidle
        | closed _ hcloses =>
          cases hcloses with
          | closed hshutdown _ =>
            exact ⟨hname, Nat.le_trans (Nat.le_add_right _ _) hshutdown, hshows,
              fun _ ↦ hshutdown⟩

end Herald

/-- If the sessions live as they should with the child that says the marker, the profile is safe. -/
theorem Lifecycle.isSafe (hline : '\n' ∉ profile.readyMarker → profile.marks line = true)
    (h : Lifecycle ((Responder.herald line).hostAt now) name profile) :
    profile.IsSafe name now := by
  let interpreter : Interpreter (Nat × Option Unit) := { name, profile }
  let first : Scene (Ledger Unit) := { world := { world := () } }
  have hexecute := (h first interpreter first [] rfl .new).execute [] []
  have hnotes := ((Responder.herald line).hostAt now).recorded_notes
  rcases hrun : (interpreter.execute ((Responder.herald line).hostAt now).recorded [] []).outcome
    first with ⟨result, later⟩
  rw [hrun] at hexecute
  have hplain := hnotes.execute interpreter [] [] first
  rw [hrun] at hplain
  have hexecutes := (Interpreter.execute_exits _ _ _ _).of_outcome hplain
  cases result with
  | error reason =>
    exact absurd (hnotes.hangs hexecute.1) (Responder.not_hangs_herald later.world.world reason)
  | ok answered => exact hexecutes.isSafe rfl hline rfl

/-- **Safe profiles.** As long as the clock shows at most `now`, the sessions of an interpreter live
as they should, whatever the children do, exactly if its profile is safe. -/
theorem isSafe_iff_lifecycle (name : Text) (profile : Profile) (now : Nat) :
    profile.IsSafe name now ↔ ∀ (ω σ : Type) (host : Host ω σ),
      (∀ world, host.clock world ≤ now) → Lifecycle host name profile := by
  constructor
  · intro hsafe ω σ host hclock
    exact hsafe.lifecycle host hclock
  · intro h
    obtain ⟨line, hline⟩ := Line.exists_marks profile
    exact (h Unit (Option Unit) _ fun _ ↦ Nat.le_refl now).isSafe hline

/-- A profile that allows an answer more seconds than the clock has left. -/
def Profile.patient : Profile :=
  { command := "sh".toList
    echo := "echo '\x7bsentinel\x7d'".toList
    timeoutSecs := some 18446744073709551615 }

/-- The first call with such a profile neither returns an answer nor fails, and leaves behind the
child that it has started, even one that answers every line. -/
theorem Profile.patient_leaves_child :
    (∀ r : Responder Unit,
      let scene : Scene (Ledger Unit) := { world := { world := () } }
      let outcome := (({ name := "repl".toList, profile := .patient } :
        Interpreter (Nat × Option Unit)).execute r.host.recorded
          "echo hello".toList "/d".toList).outcome scene
      outcome.1 = .error .clockOverflow ∧ outcome.2.world.deeds = [.started 0]) ∧
    ¬Lifecycle (Responder.herald (.ofText "#########".toList (by decide))).host "repl".toList
      .patient := by
  refine ⟨fun r ↦ ?_, fun h ↦ ?_⟩
  · have hlate : Session.lastSecond < 0 + 18446744073709551615 := by decide
    simp [Interpreter.execute, Interpreter.ensureSession, Interpreter.start, Session.start,
      Session.checkName, Session.checkDeadline, Responder.host, Responder.hostAt, Host.recorded,
      Launch.map, Reaction.map, Launch.child?, Task.outcome_bind, Profile.patient, Deed.starts,
      hlate]
  · have hsafe := h.isSafe fun _ ↦ by decide +kernel
    exact absurd (hsafe.answer _ rfl) (by decide)

end Weave
