import Mathlib.Tactic.ByContra
import Weave.Proofs.Deadline

/-!
# Responders

A responder is a child that prints some lines when it is started and answers every input with some
lines, or exits. It prints nothing else, so that its output pauses when it is closed. An input is
what is sent to it at once: one line, unless what is sent holds line feeds.

## Main definitions

* `Weave.Responder`, `Weave.Responder.Plays`: the children of a host that play a responder.
* `Weave.Responder.feed`, `Weave.Responder.converse`: what a responder prints.
* `Weave.Profile.answer`: the answer that lines make.
* `Weave.Profile.Ends`, `Weave.Responder.Echoes`: replies that end with the marker.
* `Weave.Session.Follows`, `Weave.Interpreter.Follows`: the state of the child of a session, and the
  lines that wait to be taken.

## Main results

* `Weave.Session.Requests.follows`: what a request comes to.
* `Weave.Interpreter.Executes.follows`, `Weave.Interpreter.Executes.overruns`: what running a block
  comes to.
-/

namespace Weave

variable {ω σ τ : Type}

/-! ### Children as state machines -/

/-- What a child does with an input. -/
inductive Reply (τ : Type) where
  | lines (printed : List Line) (next : τ)
  | exit (printed : List Line)

/-- A child as a state machine. -/
structure Responder (τ : Type) where
  banner : List Line
  initial : τ
  reply : τ → Text → Reply τ

namespace Responder

variable (r : Responder τ)

/-- What is printed in reply to an input, and the state after it. A child that has exited prints
nothing. -/
def feed : Option τ → Text → List Line × Option τ
  | none, _ => ([], none)
  | some s, input =>
    match r.reply s input with
    | .lines printed next => (printed, some next)
    | .exit printed => (printed, none)

theorem feed_lines {s next : τ} {input : Text} {printed : List Line}
    (h : r.reply s input = .lines printed next) : r.feed (some s) input = (printed, some next) := by
  rw [feed, h]

theorem feed_exit {s : τ} {input : Text} {printed : List Line}
    (h : r.reply s input = .exit printed) : r.feed (some s) input = (printed, none) := by
  rw [feed, h]

/-- What is printed in reply to several inputs, and the state after them. -/
def converse : Option τ → List Text → List Line × Option τ
  | state, [] => ([], state)
  | state, input :: inputs =>
    let (printed, next) := r.feed state input
    let (more, last) := converse next inputs
    (printed ++ more, last)

@[simp] theorem converse_none (inputs : List Text) : r.converse none inputs = ([], none) := by
  induction inputs with
  | nil => rfl
  | cons input inputs ih => simp [converse, feed, ih]

theorem converse_append (state : Option τ) (ins more : List Text) :
    r.converse state (ins ++ more) =
      ((r.converse state ins).1 ++ (r.converse (r.converse state ins).2 more).1,
        (r.converse (r.converse state ins).2 more).2) := by
  induction ins generalizing state with
  | nil => rfl
  | cons input ins ih => simp only [List.cons_append, converse, ih, List.append_assoc]

theorem converse_singleton (state : Option τ) (input : Text) :
    r.converse state [input] = r.feed state input := by
  simp [converse]

/-- The children that a host starts for a profile play a responder: `view` shows the state that a
child is in, or that it has exited. What is sent to a child that has exited is lost. -/
structure Plays (host : Host ω σ) (profile : Profile) (view : σ → Option τ) : Prop where
  start : ∀ world allowed, ∃ child, view child = some r.initial ∧
    (host.start world profile.command profile.args allowed).1 =
      .running ⟨child, Line.printed r.banner, false⟩
  lines : ∀ world child s input allowed printed next, view child = some s →
    r.reply s input = .lines printed next → ∃ child', view child' = some next ∧
      (host.send world child input allowed).1 = some (.taken ⟨child', Line.printed printed, false⟩)
  exit : ∀ world child s input allowed printed, view child = some s →
    r.reply s input = .exit printed → ∃ child', view child' = none ∧
      (host.send world child input allowed).1 = some (.taken ⟨child', Line.printed printed, true⟩)
  gone : ∀ world child input allowed, view child = none →
    (host.send world child input allowed).1 = some .closed ∨ ∃ child' ended, view child' = none ∧
      (host.send world child input allowed).1 = some (.taken ⟨child', [], ended⟩)
  finish : ∀ world child grace, ∃ ending, (host.finish world child grace).1 = some ending

/-- The host whose clock stands still and whose children are copies of a responder. -/
def hostAt (now : Nat) : Host Unit (Option τ) where
  clock _ := now
  readText _ _ := .error []
  isDirectory _ _ := false
  runCommand _ _ _ _ := (some (.error []), ())
  start _ _ _ _ := (.running ⟨some r.initial, Line.printed r.banner, false⟩, ())
  send _ child input _ :=
    match child with
    | none => (some .closed, ())
    | some s =>
      match r.reply s input with
      | .lines printed next => (some (.taken ⟨some next, Line.printed printed, false⟩), ())
      | .exit printed => (some (.taken ⟨none, Line.printed printed, true⟩), ())
  finish _ _ _ := (some .exited, ())
  kill _ _ := (some (), ())

/-- The host whose clock has just started. -/
def host : Host Unit (Option τ) := r.hostAt 0

theorem hostAt_plays (now : Nat) (profile : Profile) : r.Plays (r.hostAt now) profile id where
  start _ _ := ⟨_, rfl, rfl⟩
  lines _ child s input _ printed next hview hreply := by
    obtain rfl : child = some s := hview
    exact ⟨some next, rfl, by simp [hostAt, hreply]⟩
  exit _ child s input _ printed hview hreply := by
    obtain rfl : child = some s := hview
    exact ⟨none, rfl, by simp [hostAt, hreply]⟩
  gone _ child _ _ hview := by
    obtain rfl : child = none := hview
    exact .inl rfl
  finish _ _ _ := ⟨.exited, rfl⟩

theorem host_plays (profile : Profile) : r.Plays r.host profile id := r.hostAt_plays 0 profile

variable {r} in
/-- What is sent to a child is answered, unless it has exited before. -/
theorem Plays.send {host : Host ω σ} {profile : Profile} {view : σ → Option τ}
    (h : r.Plays host profile view) {child : σ} {state : Option τ} (hview : view child = state)
    (world : ω) (input : Text) (allowed : Option Nat) :
    (∃ child' ended, view child' = (r.feed state input).2 ∧
      (ended || state.isNone) = (r.feed state input).2.isNone ∧
      (host.send world child input allowed).1 =
        some (.taken ⟨child', Line.printed (r.feed state input).1, ended⟩)) ∨
    state = none ∧ (host.send world child input allowed).1 = some .closed := by
  cases state with
  | none =>
    rcases h.gone world child input allowed hview with hsend | ⟨child', ended, hchild, hsend⟩
    · exact .inr ⟨rfl, hsend⟩
    · exact .inl ⟨child', ended, hchild, by simp [feed], hsend⟩
  | some s =>
    cases hreply : r.reply s input with
    | lines printed next =>
      obtain ⟨child', hchild, hsend⟩ :=
        h.lines world child s input allowed printed next hview hreply
      rw [r.feed_lines hreply]
      exact .inl ⟨child', false, hchild, rfl, hsend⟩
    | exit printed =>
      obtain ⟨child', hchild, hsend⟩ := h.exit world child s input allowed printed hview hreply
      rw [r.feed_exit hreply]
      exact .inl ⟨child', true, hchild, rfl, hsend⟩

end Responder

/-! ### Answers -/

namespace Profile

variable (profile : Profile)

/-- Whether a line holds the marker. -/
def marks (line : Line) : Bool := Text.holds profile.readyMarker line.text

/-- The lines before the first one that holds the marker. -/
def before (ls : List Line) : List Line := ls.takeWhile fun line ↦ !profile.marks line

/-- The lines behind the first one that holds the marker. -/
def behind (ls : List Line) : List Line := (ls.dropWhile fun line ↦ !profile.marks line).tail

/-- The answer that lines make: those before the first one that holds the marker, each without its
prompts, the lines of prompts only left out, joined by line feeds, without the line breaks at the
end. -/
def answer (ls : List Line) : Text :=
  Text.trimEndWhere Text.isLineBreak (Text.joinWith ['\n']
    (((profile.before ls).map Line.text).filterMap (Prompt.strip? profile.prompt)))

/-- What is sent of a command, which is nothing if it is empty. -/
def blockInputs (command : Text) : List Text := if command = [] then [] else [command]

/-- What is sent in a request. -/
def inputs (command : Text) : List Text := blockInputs command ++ [profile.echoCommand]

variable {profile}

/-- A marker that a line holds has no line feed. -/
theorem lineFeed_notMem_readyMarker {line : Line} (h : profile.marks line = true) :
    '\n' ∉ profile.readyMarker :=
  fun hmem ↦ Session.lineFeed_notMem_lineText line.complete (Text.mem_of_holds h hmem)

/-- Lines without the marker before one that holds it. -/
theorem exists_eq_append_of_marks {ls : List Line} (h : ∃ line ∈ ls, profile.marks line = true) :
    ∃ line, ls = profile.before ls ++ line :: profile.behind ls ∧ profile.marks line = true := by
  induction ls with
  | nil => simp at h
  | cons first ls ih =>
    unfold before behind
    by_cases hfirst : profile.marks first = true
    · exact ⟨first, by simp [hfirst], hfirst⟩
    · have hls : ∃ line ∈ ls, profile.marks line = true := by simpa [hfirst] using h
      obtain ⟨line, heq, hline⟩ := ih hls
      have hcons : ∀ rest, (first :: ls = first :: rest) ↔ ls = rest := by simp
      refine ⟨line, ?_, hline⟩
      simp only [Bool.not_eq_true] at hfirst
      simp only [List.takeWhile_cons, List.dropWhile_cons, hfirst, Bool.not_false, if_true,
        List.cons_append, hcons]
      exact heq

end Profile

/-- What is printed in reply to a request is printed in reply to the command, and then to the one
that makes the sentinel be printed. -/
theorem Responder.converse_inputs (r : Responder τ) (profile : Profile) (state : Option τ)
    (command : Text) :
    r.converse state (profile.inputs command) =
      ((r.converse state (Profile.blockInputs command)).1 ++
          (r.feed (r.converse state (Profile.blockInputs command)).2 profile.echoCommand).1,
        (r.feed (r.converse state (Profile.blockInputs command)).2 profile.echoCommand).2) := by
  rw [Profile.inputs, converse_append, converse_singleton]

/-! ### Replies that end with the marker -/

section Ends

/-- The lines end with the only one that holds the marker if the child goes on; if it has exited,
none does. -/
def Profile.Ends (profile : Profile) (ls : List Line) (state : Option τ) : Prop :=
  match state with
  | none => ∀ line ∈ ls, profile.marks line = false
  | some _ => ∃ before last, ls = before ++ [last] ∧
      (∀ line ∈ before, profile.marks line = false) ∧ profile.marks last = true

variable {profile : Profile} {r : Responder τ} {state : Option τ}

namespace Profile.Ends

variable {ls more : List Line}

/-- Lines without the marker may come before. -/
theorem append (h : profile.Ends ls state) (hmore : ∀ line ∈ more, profile.marks line = false) :
    profile.Ends (more ++ ls) state := by
  cases state with
  | none =>
    intro line hline
    rcases List.mem_append.mp hline with hline | hline
    · exact hmore line hline
    · exact h line hline
  | some s =>
    obtain ⟨before, last, rfl, hbefore, hlast⟩ := h
    refine ⟨more ++ before, last, by simp, fun line hline ↦ ?_, hlast⟩
    rcases List.mem_append.mp hline with hline | hline
    · exact hmore line hline
    · exact hbefore line hline

/-- A child that goes on has printed the marker. -/
theorem exists_marks (h : profile.Ends ls state) :
    state = none ∨ ∃ line ∈ ls, profile.marks line = true := by
  cases state with
  | none => exact .inl rfl
  | some s =>
    obtain ⟨before, last, rfl, -, hlast⟩ := h
    exact .inr ⟨last, List.mem_append_right _ List.mem_cons_self, hlast⟩

/-- No line waits behind such lines. -/
theorem behind_eq_nil (h : profile.Ends ls state) : profile.behind ls = [] := by
  have hdrop {before : List Line} (hbefore : ∀ line ∈ before, profile.marks line = false)
      (rest : List Line) : (before ++ rest).dropWhile (fun line ↦ !profile.marks line) =
        rest.dropWhile fun line ↦ !profile.marks line :=
    List.dropWhile_append_of_pos fun line hline ↦ by simp [hbefore line hline]
  unfold behind
  cases state with
  | none => rw [← List.append_nil ls, hdrop h]; rfl
  | some s =>
    obtain ⟨before, last, rfl, hbefore, hlast⟩ := h
    rw [hdrop hbefore]
    simp [hlast]

end Profile.Ends

/-- The reply to the command that makes the sentinel be printed ends with the marker. -/
def Responder.Echoes (r : Responder τ) (profile : Profile) : Prop :=
  ∀ s, profile.Ends (r.feed (some s) profile.echoCommand).1
    (r.feed (some s) profile.echoCommand).2

theorem Responder.Echoes.ends (h : r.Echoes profile) (state : Option τ) :
    profile.Ends (r.feed state profile.echoCommand).1 (r.feed state profile.echoCommand).2 := by
  cases state with
  | none => exact fun line hline ↦ absurd hline List.not_mem_nil
  | some s => exact h s

/-- A child that goes on has printed the marker in reply to the echo command. -/
theorem Responder.Echoes.done (h : r.Echoes profile) (state : Option τ) (unread : List Line) :
    (r.feed state profile.echoCommand).2 = none ∨
      ∃ line ∈ unread ++ (r.feed state profile.echoCommand).1, profile.marks line = true := by
  refine (h.ends state).exists_marks.imp_right ?_
  rintro ⟨line, hline, hmarks⟩
  exact ⟨line, List.mem_append_right _ hline, hmarks⟩

end Ends

/-- What is printed until the child has answered for the first time, and the state after it. -/
def Responder.opening (r : Responder τ) (profile : Profile) : List Line × Option τ :=
  (r.banner ++ (r.feed (some r.initial) profile.echoCommand).1,
    (r.feed (some r.initial) profile.echoCommand).2)

/-- The lines that wait to be taken and the state of the child, after a session has been started if
none was running. -/
def Responder.resumed (r : Responder τ) (profile : Profile)
    (standing : Option (List Line × Option τ)) : List Line × Option τ :=
  standing.getD (profile.behind (r.opening profile).1, (r.opening profile).2)

/-- The lines that are there to be taken after a request, and the state of the child. -/
def Responder.respond (r : Responder τ) (profile : Profile)
    (standing : Option (List Line × Option τ)) (command : Text) : List Line × Option τ :=
  ((r.resumed profile standing).1 ++
      (r.converse (r.resumed profile standing).2 (profile.inputs command)).1,
    (r.converse (r.resumed profile standing).2 (profile.inputs command)).2)

/-! ### Sessions -/

section Calls

variable {host : Host ω σ} {profile : Profile} {name : Text} {r : Responder τ}
  {view : σ → Option τ} {state : Option τ} {unread : List Line} {w later : ω} {reason : Halt}

namespace Session

/-- The session of a child whose state is shown by `view`, with the lines that wait to be taken. -/
structure Follows (view : σ → Option τ) (state : Option τ) (unread : List Line)
    (session : Session σ) : Prop where
  child : view session.child = state
  queue : session.queue = unread.map Line.text
  unfinished : session.unfinished = []
  ended : session.ended = state.isNone

variable {session last : Session σ}

/-- What a session takes in when its child prints whole lines. -/
theorem Follows.absorb (h : session.Follows view state unread) {child : σ} {next : Option τ}
    {ended : Bool} (hview : view child = next) (hended : (ended || state.isNone) = next.isNone)
    (printed : List Line) :
    (session.absorb ⟨child, Line.printed printed, ended⟩).Follows view next
      (unread ++ printed) := by
  rw [absorb_printed h.unfinished]
  exact ⟨hview, by simp [h.queue], h.unfinished, by simpa [h.ended] using hended⟩

/-- The answer is found before the first line that holds the marker. -/
theorem Follows.collect?_of_marks (h : session.Follows view state unread)
    (hmarks : ∃ line ∈ unread, profile.marks line = true) :
    collect? profile.readyMarker profile.prompt session.queue =
      some (shown profile.prompt ((profile.before unread).map Line.text),
        (profile.behind unread).map Line.text) := by
  obtain ⟨line, heq, hline⟩ := Profile.exists_eq_append_of_marks hmarks
  have hbefore : Unmarked profile.readyMarker ((profile.before unread).map Line.text) := by
    rintro _ ht
    obtain ⟨l, hl, rfl⟩ := List.mem_map.mp ht
    simpa [Profile.marks] using List.all_eq_true.mp List.all_takeWhile l hl
  refine collect?_eq_some_iff.mpr ⟨_, line.text, ?_, hbefore, hline, rfl⟩
  rw [h.queue, ← List.map_cons, ← List.map_append, ← heq]

theorem Follows.collect?_of_not_marks (h : session.Follows view state unread)
    (hmarks : ¬∃ line ∈ unread, profile.marks line = true) :
    collect? profile.readyMarker profile.prompt session.queue = none := by
  refine collect?_eq_none_iff.mpr fun text htext ↦ ?_
  rw [h.queue] at htext
  obtain ⟨line, hline, rfl⟩ := List.mem_map.mp htext
  exact Bool.not_eq_true _ ▸ fun hholds ↦ hmarks ⟨line, hline, hholds⟩

/-! #### Lines that are sent -/

section Sends

variable (hplays : r.Plays host profile view) (h : session.Follows view state unread)
include hplays h

/-- A line that is sent is answered, unless the child has exited before. -/
theorem Sends.follows {input : Text} {sent : Except Error (Session σ)} :
    Sends host name profile session input w (.ok sent) later →
    match sent with
    | .ok next => next.Follows view (r.feed state input).2 (unread ++ (r.feed state input).1)
    | .error e => state = none ∧ e = .interpreterExited name := by
  intro hsends
  rcases hplays.send h.child w input profile.timeoutSecs with
    ⟨child, ended, hview, hended, hsend⟩ | ⟨hnone, hsend⟩
  · cases hsends with
    | taken htaken =>
      rw [htaken] at hsend
      cases hsend
      exact h.absorb hview hended _
    | closed hclosed => rw [hclosed] at hsend; cases hsend
    | failed hfailed => rw [hfailed] at hsend; cases hsend
  · cases hsends with
    | taken htaken => rw [htaken] at hsend; cases hsend
    | closed _ => exact ⟨hnone, rfl⟩
    | failed hfailed => rw [hfailed] at hsend; cases hsend

theorem Sends.not_halted {input : Text} :
    ¬Sends host name profile session input w (.error reason) later := by
  intro hsends
  cases hsends with
  | endless hendless =>
    rcases hplays.send h.child w input profile.timeoutSecs with ⟨_, _, -, -, hsend⟩ | ⟨-, hsend⟩ <;>
    · rw [hendless] at hsend
      cases hsend

theorem SendsCommand.follows {command : Text} {sent : Except Error (Session σ)} :
    SendsCommand host name profile session command w (.ok sent) later →
    match sent with
    | .ok next => next.Follows view (r.converse state (Profile.blockInputs command)).2
        (unread ++ (r.converse state (Profile.blockInputs command)).1)
    | .error e => state = none ∧ e = .interpreterExited name := by
  intro hsends
  unfold Profile.blockInputs
  cases hsends with
  | unsent hcommand =>
    rw [if_pos hcommand, Responder.converse, List.append_nil]
    exact h
  | sent hne hsends =>
    rw [if_neg hne, Responder.converse_singleton]
    exact hsends.follows hplays h

end Sends

/-! #### Answers that are taken -/

/-- An answer is found if a line that waits holds the marker. -/
theorem Reads.not_marks (h : session.Follows view state unread) {e : Error}
    (hreads : Reads name profile session (.ok (.error e, last))) :
    ¬∃ line ∈ unread, profile.marks line = true := by
  intro hmarks
  have hcollect := h.collect?_of_marks hmarks
  cases hreads with
  | exited hnone _ => cases hcollect.symm.trans hnone
  | late hnone _ _ => cases hcollect.symm.trans hnone

section Reads

variable (h : session.Follows view state unread)
  (hdone : state = none ∨ ∃ line ∈ unread, profile.marks line = true)
include h hdone

/-- The answer is taken from the lines before the first one that holds the marker. Without one, the
child has exited. -/
theorem Reads.follows {result : Except Error Text} :
    Reads name profile session (.ok (result, last)) →
    match result with
    | .ok answer => (∃ line ∈ unread, profile.marks line = true) ∧
        answer = shown profile.prompt ((profile.before unread).map Line.text) ∧
        last.Follows view state (profile.behind unread)
    | .error e => state = none ∧ e = .interpreterExited name := by
  intro hreads
  cases result with
  | ok answer =>
    cases hreads with
    | answered hfound =>
      have hmarks : ∃ line ∈ unread, profile.marks line = true := by
        by_contra hnot
        cases (h.collect?_of_not_marks hnot).symm.trans hfound
      cases (h.collect?_of_marks hmarks).symm.trans hfound
      exact ⟨hmarks, rfl, h.child, rfl, h.unfinished, h.ended⟩
  | error e =>
    have hnone : state = none := hdone.resolve_right (hreads.not_marks h)
    cases hreads with
    | exited _ _ => exact ⟨hnone, rfl⟩
    | late _ hended _ =>
      rw [h.ended, hnone] at hended
      cases hended

theorem Reads.not_halted : ¬Reads name profile session (.error reason) := by
  intro hreads
  cases hreads with
  | endless hcollect hended _ =>
    have hstate : state ≠ none := fun hnone ↦ by
      rw [h.ended, hnone] at hended
      cases hended
    cases (h.collect?_of_marks (hdone.resolve_left hstate)).symm.trans hcollect

end Reads

/-! #### Calls of a session -/

/-- Only a deadline that is too far ahead keeps a session from being closed. -/
theorem Closes.overruns (hplays : r.Plays host profile view) {grace : Nat}
    (hsafe : ∀ now, profile.IsSafe name now → now + grace ≤ lastSecond)
    (h : Closes host grace session w (.error reason) later) : host.Overruns name profile := by
  cases h with
  | late hlate => exact .of_not_shows hlate hsafe
  | endless _ hendless =>
    obtain ⟨ending, hending⟩ := hplays.finish w session.child grace
    rw [hendless] at hending
    cases hending

variable (hechoes : r.Echoes profile) (hplays : r.Plays host profile view)
include hechoes hplays

theorem Synchronizes.follows (h : session.Follows view state unread) {result : Except Error Text} :
    Synchronizes host name profile session w (.ok (result, last)) later →
    match result with
    | .ok answer =>
      (∃ line ∈ unread ++ (r.feed state profile.echoCommand).1, profile.marks line = true) ∧
        answer = shown profile.prompt ((profile.before
          (unread ++ (r.feed state profile.echoCommand).1)).map Line.text) ∧
        last.Follows view (r.feed state profile.echoCommand).2
          (profile.behind (unread ++ (r.feed state profile.echoCommand).1))
    | .error e =>
      (r.feed state profile.echoCommand).2 = none ∧ e = .interpreterExited name := by
  intro hsync
  cases hsync with
  | unsent hsends =>
    obtain ⟨rfl, rfl⟩ := hsends.follows hplays h
    exact ⟨rfl, rfl⟩
  | read hsends hreads => exact hreads.follows (hsends.follows hplays h) (hechoes.done state unread)

theorem Synchronizes.not_halted (h : session.Follows view state unread) :
    ¬Synchronizes host name profile session w (.error reason) later := by
  intro hsync
  cases hsync with
  | halted hsends => exact hsends.not_halted hplays h
  | read hsends hreads =>
    exact hreads.not_halted (hsends.follows hplays h) (hechoes.done state unread)

/-- A request takes the answer from the lines that waited and those printed in reply to it. -/
theorem Requests.follows (h : session.Follows view state unread) {command : Text}
    {result : Except Error Text} :
    Requests host name profile command session w (.ok (result, last)) later →
    match result with
    | .ok answer =>
      (∃ line ∈ unread ++ (r.converse state (profile.inputs command)).1,
        profile.marks line = true) ∧
        answer = profile.answer (unread ++ (r.converse state (profile.inputs command)).1) ∧
        last.Follows view (r.converse state (profile.inputs command)).2
          (profile.behind (unread ++ (r.converse state (profile.inputs command)).1))
    | .error e =>
      (r.converse state (profile.inputs command)).2 = none ∧ e = .interpreterExited name := by
  intro hrequests
  rw [Responder.converse_inputs]
  cases hrequests with
  | unsent _ hsends =>
    obtain ⟨rfl, rfl⟩ := hsends.follows hplays h
    exact ⟨by simp [Responder.feed], rfl⟩
  | answered _ hsends hsync =>
    have hanswer := hsync.follows hechoes hplays (hsends.follows hplays h)
    rw [List.append_assoc] at hanswer
    obtain ⟨hmarks, rfl, hlast⟩ := hanswer
    exact ⟨hmarks, trimEndWhere_shown _, hlast⟩
  | failed _ hsends hsync => exact hsync.follows hechoes hplays (hsends.follows hplays h)

theorem Requests.overruns (h : session.Follows view state unread) {command : Text}
    (hrequests : Requests host name profile command session w (.error reason) later) :
    host.Overruns name profile := by
  cases hrequests with
  | late hshows => exact .of_not_showsDeadline hshows
  | untaken _ hsends =>
    cases hsends with
    | sent _ hsends => exact absurd hsends (Sends.not_halted hplays h)
  | halted _ hsends hsync =>
    exact absurd hsync (Synchronizes.not_halted hechoes hplays (hsends.follows hplays h))

omit hechoes in
/-- What a child prints at its start is taken in. -/
theorem follows_of_start {launch : Launch σ}
    (hstart : host.start w profile.command profile.args profile.timeoutSecs = (launch, later)) :
    ∃ child, launch = .running ⟨child, Line.printed r.banner, false⟩ ∧
      Follows view (some r.initial) r.banner
        (Session.absorb { child } ⟨child, Line.printed r.banner, false⟩) := by
  obtain ⟨child, hview, hlaunch⟩ := hplays.start w profile.timeoutSecs
  rw [hstart] at hlaunch
  have hchild : Follows view (some r.initial) [] { child } := ⟨hview, rfl, rfl, rfl⟩
  exact ⟨child, hlaunch, hchild.absorb hview rfl r.banner⟩

/-- A child that has not exited has printed the marker when its session starts. -/
theorem Starts.follows {result : Except Error (Session σ)} :
    Starts host name profile w (.ok result) later →
    match result with
    | .ok session => (∃ line ∈ (r.opening profile).1, profile.marks line = true) ∧
        session.Follows view (r.opening profile).2 (profile.behind (r.opening profile).1)
    | .error e => (r.opening profile).2 = none ∧ e = .interpreterExited name := by
  intro hstarts
  cases hstarts with
  | failed hstart =>
    obtain ⟨child, hlaunch, -⟩ := follows_of_start hplays hstart
    cases hlaunch
  | discarded hstart hlaunch _ =>
    obtain ⟨child, rfl, -⟩ := follows_of_start hplays hstart
    cases hlaunch
  | ready hstart _ _ hsync =>
    obtain ⟨child, ⟨rfl⟩, hfollows⟩ := follows_of_start hplays hstart
    obtain ⟨hmarks, -, hlast⟩ := hsync.follows hechoes hplays hfollows
    exact ⟨hmarks, hlast⟩
  | unready hstart _ _ hsync _ =>
    obtain ⟨child, ⟨rfl⟩, hfollows⟩ := follows_of_start hplays hstart
    exact hsync.follows hechoes hplays hfollows

theorem Starts.overruns (hstarts : Starts host name profile w (.error reason) later) :
    host.Overruns name profile := by
  cases hstarts with
  | undying hstart hlaunch _ =>
    obtain ⟨child, rfl, -⟩ := follows_of_start hplays hstart
    cases hlaunch
  | unnamed _ _ hname => exact .of_name hname
  | late _ _ hshows => exact .of_not_showsDeadline hshows
  | halted hstart _ _ hsync =>
    obtain ⟨child, ⟨rfl⟩, hfollows⟩ := follows_of_start hplays hstart
    exact absurd hsync (Synchronizes.not_halted hechoes hplays hfollows)
  | unclosed _ _ _ _ hcloses => exact hcloses.overruns hplays fun _ hsafe ↦ hsafe.clock

end Session

/-! ### Interpreters -/

namespace Interpreter

/-- An interpreter in which no session is running, or one that leaves some lines to be taken and
whose child is in some state. -/
def Follows (view : σ → Option τ) (standing : Option (List Line × Option τ))
    (interpreter : Interpreter σ) : Prop :=
  match standing with
  | none => interpreter.session = none
  | some (unread, state) => '\n' ∉ interpreter.profile.readyMarker ∧
      ∃ session, interpreter.session = some session ∧ session.Follows view state unread

variable {standing : Option (List Line × Option τ)} {interpreter next : Interpreter σ}
  {session : Session σ} {body dir : Text}

theorem Follows.of_some (h : interpreter.Follows view standing)
    (hsession : interpreter.session = some session) :
    '\n' ∉ interpreter.profile.readyMarker ∧ ∃ unread state, standing = some (unread, state) ∧
      session.Follows view state unread := by
  cases standing with
  | none =>
    have hnone : interpreter.session = none := h
    rw [hnone] at hsession
    cases hsession
  | some standing =>
    obtain ⟨unread, state⟩ := standing
    obtain ⟨hmarker, running, hrunning, hfollows⟩ := h
    obtain rfl : session = running := Option.some.inj (hsession.symm.trans hrunning)
    exact ⟨hmarker, unread, state, rfl, hfollows⟩

theorem Follows.sound (h : interpreter.Follows view standing) : interpreter.Sound := by
  intro hready
  obtain ⟨session, hsession⟩ := Option.isSome_iff_exists.mp hready
  exact (h.of_some hsession).1

/-- Only a deadline that is too far ahead keeps an interpreter from being stopped. -/
theorem Stops.overruns (h : Stops host interpreter w (.error reason) later)
    (hplays : r.Plays host interpreter.profile view) (hsound : interpreter.Sound) :
    host.Overruns interpreter.name interpreter.profile := by
  cases h with
  | halted hsession hcloses =>
    exact hcloses.overruns hplays fun _ hsafe ↦ hsafe.shutdown (hsound.of_some hsession)

variable (hechoes : r.Echoes interpreter.profile) (hplays : r.Plays host interpreter.profile view)
  (h : interpreter.Follows view standing)
include hechoes hplays h

/-- A session that is started has taken its opening. -/
theorem Readies.follows {result : Except Error (Session σ)} :
    Readies host interpreter w (.ok (result, next)) later →
    match result with
    | .ok session => '\n' ∉ interpreter.profile.readyMarker ∧
        session.Follows view (r.resumed interpreter.profile standing).2
          (r.resumed interpreter.profile standing).1
    | .error e => (r.resumed interpreter.profile standing).2 = none ∧
        e = .interpreterExited interpreter.name := by
  intro hreadies
  cases standing with
  | some standing =>
    obtain ⟨hmarker, session, hsession, hfollows⟩ := h
    cases hreadies with
    | running hrunning =>
      cases hsession.symm.trans hrunning
      exact ⟨hmarker, hfollows⟩
    | started hnone _ => cases hsession.symm.trans hnone
    | failed hnone _ => cases hsession.symm.trans hnone
  | none =>
    have hnone : interpreter.session = none := h
    cases hreadies with
    | running hrunning => cases hnone.symm.trans hrunning
    | started _ hstarts =>
      obtain ⟨⟨line, -, hline⟩, hfollows⟩ := hstarts.follows hechoes hplays
      exact ⟨Profile.lineFeed_notMem_readyMarker hline, hfollows⟩
    | failed _ hstarts => exact hstarts.follows hechoes hplays

/-- **Running a block.** The answer is made by the lines that waited to be taken and those printed
in reply to the block and to the command that makes the sentinel be printed, up to the first one
that holds the marker. The lines behind that one wait from then on. Without an answer, the child has
exited. -/
theorem Executes.follows {result : Except Error Text} :
    Executes host interpreter body dir w (.ok (result, next)) later →
    let (ls, last) := r.respond interpreter.profile standing
      (interpreter.profile.commandLine dir body)
    match result with
    | .ok answer => (∃ line ∈ ls, interpreter.profile.marks line = true) ∧
        answer = interpreter.profile.answer ls ∧
        next.Follows view (some (interpreter.profile.behind ls, last))
    | .error e => last = none ∧ e = .interpreterExited interpreter.name ∧
        next.Follows view none := by
  intro hexecutes
  unfold Responder.respond
  cases hexecutes with
  | unready hreadies =>
    obtain ⟨hstate, rfl⟩ := hreadies.follows hechoes hplays h
    obtain ⟨rfl, hnone⟩ := hreadies.eq_of_error
    rw [hstate]
    exact ⟨by simp, rfl, hnone⟩
  | @answered _ _ last _ _ _ hreadies hrequests =>
    obtain ⟨hmarker, hsession⟩ := hreadies.follows hechoes hplays h
    obtain rfl := hreadies.eq_of_ok
    obtain ⟨hmarks, rfl, hlast⟩ := hrequests.follows hechoes hplays hsession
    exact ⟨hmarks, rfl, hmarker, last, rfl, hlast⟩
  | failed hreadies hrequests hstops =>
    obtain ⟨-, hsession⟩ := hreadies.follows hechoes hplays h
    obtain rfl := hreadies.eq_of_ok
    obtain ⟨hlast, rfl⟩ := hrequests.follows hechoes hplays hsession
    exact ⟨hlast, rfl, by rw [hstops.eq]; rfl⟩

/-- Only a deadline that is too far ahead keeps a block from coming to a result. -/
theorem Executes.overruns
    (hexecutes : Executes host interpreter body dir w (.error reason) later) :
    host.Overruns interpreter.name interpreter.profile := by
  cases hexecutes with
  | unstarted hreadies =>
    cases hreadies with
    | halted _ hstarts => exact hstarts.overruns hechoes hplays
  | halted hreadies hrequests =>
    obtain ⟨-, hsession⟩ := hreadies.follows hechoes hplays h
    obtain rfl := hreadies.eq_of_ok
    exact hrequests.overruns hechoes hplays hsession
  | unstopped hreadies _ hstops =>
    obtain ⟨hmarker, -⟩ := hreadies.follows hechoes hplays h
    obtain rfl := hreadies.eq_of_ok
    exact hstops.overruns hplays fun _ ↦ hmarker

end Interpreter

end Calls

end Weave
