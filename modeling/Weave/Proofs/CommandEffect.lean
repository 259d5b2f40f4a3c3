import Weave.Proofs.Exits
import Weave.Proofs.Printed

/-!
# What a command does to the world and to its child

Of everything that a call of an interpreter does to the world and to its child, only the command
counts: what can be said of them before the command has been sent is not changed by starting the
child, by making it print its sentinel, by closing it or by killing it. The same holds of what can
be said after the command.

## Main definitions

* `Weave.Host.Starts`, `Weave.Host.Keeps`, `Weave.Host.Turns`: what is said of the world and of a
  child when it is started, while it answers, and when it takes a command.
* `Weave.Interpreter.Says`: what is said of an interpreter.

## Main results

* `Weave.Interpreter.Executes.turned`, `Weave.Interpreter.Executes.kept_or_turned`: what a block
  that is answered has done, and one that fails.
-/

namespace Weave

variable {ω σ : Type}

namespace Host

/-- What is said of the world (`said`) is said of it and of a child (`own`) that is started. -/
def Starts (host : Host ω σ) (profile : Profile) (said : ω → Prop) (own : ω → σ → Prop) : Prop :=
  ∀ w, said w →
    let started := host.start w profile.command profile.args profile.timeoutSecs
    match started.1.child? with
    | some child => own started.2 child
    | none => said started.2

/-- A line changes what is said of the world and of a child that takes it. -/
def Takes (host : Host ω σ) (profile : Profile) (line : Text) (own own' : ω → σ → Prop) : Prop :=
  ∀ w child, own w child →
    match host.send w child line profile.timeoutSecs with
    | (some (.taken reaction), later) => own' later reaction.child
    | (_, later) => own later child

/-- What is said of the world and of a child still holds when it has been made to print its
sentinel, and what is said of the world when it has been closed or killed. -/
structure Keeps (host : Host ω σ) (profile : Profile) (said : ω → Prop) (own : ω → σ → Prop) :
    Prop where
  echo : host.Takes profile profile.echoCommand own own
  finish : ∀ w child grace, own w child → said (host.finish w child grace).2
  kill : ∀ w child, own w child → said (host.kill w child).2

/-- A command changes what is said of the world and of a child that takes it; an empty one is not
sent. -/
structure Turns (host : Host ω σ) (profile : Profile) (command : Text)
    (own own' : ω → σ → Prop) : Prop where
  unsent : command = [] → ∀ w child, own w child → own' w child
  sent : command ≠ [] → host.Takes profile command own own'

variable {host : Host ω σ} {profile : Profile} {said : ω → Prop} {own own' : ω → σ → Prop}
  {w later : ω}

/-- A child that has been started. -/
theorem Starts.child (h : host.Starts profile said own) (hsaid : said w) {launch : Launch σ}
    {child : σ}
    (hstart : host.start w profile.command profile.args profile.timeoutSecs = (launch, later))
    (hchild : launch.child? = some child) : own later child := by
  have hw := h w hsaid
  dsimp only at hw
  rwa [hstart, hchild] at hw

theorem Starts.failed (h : host.Starts profile said own) (hsaid : said w) {reason : Text}
    (hstart : host.start w profile.command profile.args profile.timeoutSecs =
      (.failed reason, later)) : said later := by
  have hw := h w hsaid
  dsimp only at hw
  rwa [hstart] at hw

theorem Takes.taken {line : Text} (h : host.Takes profile line own own') {child : σ}
    (hown : own w child) {reaction : Reaction σ}
    (hsend : host.send w child line profile.timeoutSecs = (some (.taken reaction), later)) :
    own' later reaction.child := by
  have hw := h w child hown
  rwa [hsend] at hw

end Host

variable {host : Host ω σ} {name : Text} {profile : Profile} {said said' : ω → Prop}
  {own own' : ω → σ → Prop} {command : Text} {w later : ω} {e : Error}

/-! ### Sessions -/

namespace Session

variable {session next : Session σ}

theorem Sends.taken_child {line : Text} (htakes : host.Takes profile line own own')
    (hown : own w session.child)
    (h : Sends host name profile session line w (.ok (.ok next)) later) :
    own' later next.child := by
  cases h with
  | taken h =>
    rw [absorb_child]
    exact htakes.taken hown h

theorem Sends.kept_child {line : Text} (htakes : host.Takes profile line own own')
    (hown : own w session.child)
    (h : Sends host name profile session line w (.ok (.error e)) later) :
    own later session.child := by
  have hw := htakes w _ hown
  cases h with
  | closed h => rwa [h] at hw
  | failed h => rwa [h] at hw

theorem SendsCommand.taken_child (hturns : host.Turns profile command own own')
    (hown : own w session.child)
    (h : SendsCommand host name profile session command w (.ok (.ok next)) later) :
    own' later next.child := by
  cases h with
  | unsent hcommand => exact hturns.unsent hcommand w _ hown
  | sent hne h => exact h.taken_child (hturns.sent hne) hown

theorem SendsCommand.kept_child (hturns : host.Turns profile command own own')
    (hown : own w session.child)
    (h : SendsCommand host name profile session command w (.ok (.error e)) later) :
    own later session.child := by
  cases h with
  | sent hne h => exact h.kept_child (hturns.sent hne) hown

theorem Synchronizes.kept_child (hkeeps : host.Keeps profile said own)
    (hown : own w session.child) {result : Except Error Text}
    (h : Synchronizes host name profile session w (.ok (result, next)) later) :
    own later next.child := by
  cases h with
  | unsent h => exact h.kept_child hkeeps.echo hown
  | read hsends hreads =>
    rw [hreads.child_eq]
    exact hsends.taken_child hkeeps.echo hown

theorem Closes.kept {grace : Nat} (hkeeps : host.Keeps profile said own)
    (hown : own w session.child) (h : Closes host grace session w (.ok ()) later) : said later := by
  cases h with
  | closed _ h =>
    have hw := hkeeps.finish w _ grace hown
    rwa [h] at hw

theorem Starts.kept_child (hstarts : host.Starts profile said own)
    (hkeeps : host.Keeps profile said own) (hsaid : said w)
    (h : Starts host name profile w (.ok (.ok session)) later) : own later session.child := by
  cases h with
  | @ready reaction _ _ _ _ h _ _ hsync =>
    have hown := hstarts.child hsaid h rfl
    rw [← absorb_child { child := reaction.child } reaction] at hown
    exact hsync.kept_child hkeeps hown

theorem Starts.kept (hstarts : host.Starts profile said own) (hkeeps : host.Keeps profile said own)
    (hsaid : said w) (h : Starts host name profile w (.ok (.error e)) later) : said later := by
  cases h with
  | failed h => exact hstarts.failed hsaid h
  | discarded h hlaunch hkill =>
    have hw := hkeeps.kill _ _ (hstarts.child hsaid h hlaunch.child?_eq)
    rwa [hkill] at hw
  | @unready reaction _ _ _ _ _ h _ _ hsync hcloses =>
    have hown := hstarts.child hsaid h rfl
    rw [← absorb_child { child := reaction.child } reaction] at hown
    exact hcloses.kept hkeeps (hsync.kept_child hkeeps hown)

/-- A request that is answered has taken its turn. -/
theorem Requests.turned (hturns : host.Turns profile command own own')
    (hkeeps : host.Keeps profile said' own') (hown : own w session.child) {answer : Text}
    (h : Requests host name profile command session w (.ok (.ok answer, next)) later) :
    own' later next.child := by
  cases h with
  | answered _ hsends hsync => exact hsync.kept_child hkeeps (hsends.taken_child hturns hown)

/-- A request that fails may have taken its turn. -/
theorem Requests.kept_or_turned (hturns : host.Turns profile command own own')
    (hkeeps : host.Keeps profile said' own') (hown : own w session.child)
    (h : Requests host name profile command session w (.ok (.error e, next)) later) :
    own later next.child ∨ own' later next.child := by
  cases h with
  | unsent _ h => exact .inl (h.kept_child hturns hown)
  | failed _ hsends hsync => exact .inr (hsync.kept_child hkeeps (hsends.taken_child hturns hown))

end Session

/-! ### Interpreters -/

namespace Interpreter

/-- What is said of the world of an interpreter, and of the child of its session. -/
def Says (said : ω → Prop) (own : ω → σ → Prop) (interpreter : Interpreter σ) (world : ω) : Prop :=
  match interpreter.session with
  | none => said world
  | some session => own world session.child

variable {interpreter next : Interpreter σ} {session : Session σ} {body dir answer : Text}

theorem Says.of_none (h : interpreter.Says said own w) (hnone : interpreter.session = none) :
    said w := by
  rwa [Says, hnone] at h

theorem Says.of_some (h : interpreter.Says said own w)
    (hsession : interpreter.session = some session) : own w session.child := by
  rwa [Says, hsession] at h

theorem Stops.kept (h : Stops host interpreter w (.ok next) later)
    (hkeeps : host.Keeps interpreter.profile said own) (hsaid : interpreter.Says said own w) :
    said later := by
  cases h with
  | idle hnone => exact hsaid.of_none hnone
  | closed hsession hcloses => exact hcloses.kept hkeeps (hsaid.of_some hsession)

section Turn

variable (hstarts : interpreter.session = none → host.Starts interpreter.profile said own)
  (hkeeps : host.Keeps interpreter.profile said own) (hsaid : interpreter.Says said own w)
include hstarts hkeeps hsaid

theorem Readies.kept_child (h : Readies host interpreter w (.ok (.ok session, next)) later) :
    own later session.child := by
  cases h with
  | running hsession => exact hsaid.of_some hsession
  | started hnone h => exact h.kept_child (hstarts hnone) hkeeps (hsaid.of_none hnone)

variable
  (hturns : host.Turns interpreter.profile (interpreter.profile.commandLine dir body) own own')
  (hkeeps' : host.Keeps interpreter.profile said' own')
include hturns hkeeps'

/-- **A block that is answered** has taken its turn, and its session goes on. -/
theorem Executes.turned (h : Executes host interpreter body dir w (.ok (.ok answer, next)) later) :
    ∃ session, next.session = some session ∧ own' later session.child := by
  cases h with
  | @answered _ _ last _ _ _ hreadies hrequests =>
    have hown := hreadies.kept_child hstarts hkeeps hsaid
    obtain rfl := hreadies.eq_of_ok
    exact ⟨last, rfl, hrequests.turned hturns hkeeps' hown⟩

/-- **A block that fails** may have taken its turn, and leaves no session. -/
theorem Executes.kept_or_turned
    (h : Executes host interpreter body dir w (.ok (.error e, next)) later) :
    next.session = none ∧ (said later ∨ said' later) := by
  cases h with
  | unready hreadies =>
    obtain ⟨rfl, hnone⟩ := hreadies.eq_of_error
    cases hreadies with
    | failed _ h => exact ⟨hnone, .inl (h.kept (hstarts hnone) hkeeps (hsaid.of_none hnone))⟩
  | failed hreadies hrequests hstops =>
    have hown := hreadies.kept_child hstarts hkeeps hsaid
    obtain rfl := hreadies.eq_of_ok
    have hnone := hstops.eq
    -- The session is closed before or after the turn.
    rcases hrequests.kept_or_turned hturns hkeeps' hown with hlast | hlast
    · exact ⟨by rw [hnone], .inl (hstops.kept hkeeps hlast)⟩
    · exact ⟨by rw [hnone], .inr (hstops.kept hkeeps' hlast)⟩

end Turn

end Interpreter

end Weave
