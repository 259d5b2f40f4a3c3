import Weave.Proofs.Ledger

/-!
# The life of sessions

Whatever its children do, an interpreter has at most one of them live at any time. It closes every
child that it starts exactly once, before it starts another one, and at the latest when it is
stopped. It is ready exactly when its last block was answered, and only starts a child when it is
not. All this holds unless a call is cut short.

## Main definitions

* `Weave.Interpreter.Accounts`: the deeds that bring an interpreter to its state.
* `Weave.Interpreter.Executed`: what running a block does to an interpreter.
* `Weave.Interpreter.Orderly`: how an interpreter stands between two calls.
* `Weave.Lifecycle`: its sessions live as they should.

## Main results

* `Weave.Interpreter.Executes.accounts`, `Weave.Interpreter.Stops.accounts`: each call keeps the
  deeds accounted for.
* `Weave.Interpreter.Reaches.accounts`: so do any calls.
* `Weave.Profile.IsSafe.lifecycle`: the sessions of a safe profile live as they should.
-/

namespace Weave

variable {ω σ : Type} {host : Host ω σ} {name : Text} {profile : Profile} {w later : Ledger ω}
  {reason : Halt} {e : Error}

/-! ### Sessions -/

namespace Session

variable {session next : Session (Nat × σ)}

/-- Sending a line is no deed, and keeps the number of the child. -/
theorem Sends.deeds {line : Text} {result : Except Halt (Except Error (Session (Nat × σ)))}
    (h : Sends host.recorded name profile session line w result later) :
    later.deeds = w.deeds ∧ ∀ next, result = .ok (.ok next) → next.child.1 = session.child.1 := by
  cases h with
  | taken h =>
    obtain ⟨hdeeds, hnumber⟩ := Host.recorded_send h
    refine ⟨hdeeds, ?_⟩
    rintro _ ⟨⟩
    rw [absorb_child, hnumber _ rfl]
  | closed h => exact ⟨(Host.recorded_send h).1, by simp⟩
  | failed h => exact ⟨(Host.recorded_send h).1, by simp⟩
  | endless h => exact ⟨(Host.recorded_send h).1, by simp⟩

theorem SendsCommand.deeds {command : Text}
    {result : Except Halt (Except Error (Session (Nat × σ)))}
    (h : SendsCommand host.recorded name profile session command w result later) :
    later.deeds = w.deeds ∧ ∀ next, result = .ok (.ok next) → next.child.1 = session.child.1 := by
  cases h with
  | unsent _ => exact ⟨rfl, by rintro _ ⟨⟩; rfl⟩
  | sent _ h => exact h.deeds

theorem Synchronizes.deeds {result : Except Halt (Except Error Text × Session (Nat × σ))}
    (h : Synchronizes host.recorded name profile session w result later) :
    later.deeds = w.deeds ∧
      ∀ answer last, result = .ok (answer, last) → last.child.1 = session.child.1 := by
  cases h with
  | unsent h => exact ⟨h.deeds.1, by rintro _ _ ⟨⟩; rfl⟩
  | halted h => exact ⟨h.deeds.1, by simp⟩
  | read hsends hreads =>
    obtain ⟨hdeeds, hnumber⟩ := hsends.deeds
    refine ⟨hdeeds, ?_⟩
    rintro answer last rfl
    rw [hreads.child_eq, hnumber _ rfl]

/-- A request is no deed. -/
theorem Requests.deeds {command : Text}
    {result : Except Halt (Except Error Text × Session (Nat × σ))}
    (h : Requests host.recorded name profile command session w result later) :
    later.deeds = w.deeds ∧
      ∀ answer last, result = .ok (answer, last) → last.child.1 = session.child.1 := by
  cases h with
  | late _ => exact ⟨rfl, by simp⟩
  | unsent _ h => exact ⟨h.deeds.1, by rintro _ _ ⟨⟩; rfl⟩
  | untaken _ h => exact ⟨h.deeds.1, by simp⟩
  | answered _ hsends hsync =>
    refine ⟨hsync.deeds.1.trans hsends.deeds.1, ?_⟩
    rintro _ _ ⟨⟩
    exact (hsync.deeds.2 _ _ rfl).trans (hsends.deeds.2 _ rfl)
  | failed _ hsends hsync =>
    refine ⟨hsync.deeds.1.trans hsends.deeds.1, ?_⟩
    rintro _ _ ⟨⟩
    exact (hsync.deeds.2 _ _ rfl).trans (hsends.deeds.2 _ rfl)
  | halted _ hsends hsync => exact ⟨hsync.deeds.1.trans hsends.deeds.1, by simp⟩

/-- Closing a session is one deed, also if the output of its child never pauses. -/
theorem Closes.deeds {grace : Nat} {result : Except Halt Unit}
    (h : Closes host.recorded grace session w result later) :
    (later.deeds = w.deeds ++ [.closed session.child.1]) ∨
      (later.deeds = w.deeds ∧ result = .error .clockOverflow) := by
  cases h with
  | late _ => exact .inr ⟨rfl, rfl⟩
  | closed _ h => exact .inl (Host.recorded_finish h)
  | endless _ h => exact .inl (Host.recorded_finish h)

variable {n : Nat}

/-- The next child is started. -/
theorem deeds_of_start {launch : Launch (Nat × σ)} {child : Nat × σ} {allowed : Option Nat}
    (hw : w.deeds = Deed.history n)
    (h : host.recorded.start w profile.command profile.args allowed = (launch, later))
    (hchild : launch.child? = some child) :
    later.deeds = Deed.history n ++ [.started n] ∧ child.1 = n := by
  obtain ⟨hdeeds, hnumber⟩ := Host.recorded_start h
  rw [hchild, hw, Deed.starts_history] at hdeeds
  rw [hw, Deed.starts_history] at hnumber
  exact ⟨hdeeds, hnumber child hchild⟩

theorem deeds_of_closed {deeds : List Deed} {number : Nat}
    (h : deeds = (Deed.history n ++ [.started n]) ++ [.closed number]) (hnumber : number = n) :
    deeds = Deed.history (n + 1) := by
  rw [h, hnumber, Deed.history, List.append_assoc]
  rfl

/-- What has been started for a session is its child. -/
theorem Starts.deeds_of_ok
    (h : Starts host.recorded name profile w (.ok (.ok session)) later)
    (hw : w.deeds = Deed.history n) :
    later.deeds = Deed.history n ++ [.started n] ∧ session.child.1 = n := by
  cases h with
  | ready h _ _ hsync =>
    obtain ⟨hdeeds, hnumber⟩ := deeds_of_start hw h rfl
    obtain ⟨hsame, hchild⟩ := hsync.deeds
    rw [hchild _ _ rfl, absorb_child]
    exact ⟨hsame.trans hdeeds, hnumber⟩

/-- A child of which no session is made is closed or killed. -/
theorem Starts.deeds_of_error (h : Starts host.recorded name profile w (.ok (.error e)) later)
    (hw : w.deeds = Deed.history n) :
    ∃ k, n ≤ k ∧ k ≤ n + 1 ∧ later.deeds = Deed.history k := by
  cases h with
  | failed h =>
    refine ⟨n, Nat.le_refl n, Nat.le_succ n, ?_⟩
    rw [(Host.recorded_start h).1, hw]
    exact List.append_nil _
  | discarded h hlaunch hkill =>
    obtain ⟨hdeeds, hnumber⟩ := deeds_of_start hw h hlaunch.child?_eq
    exact ⟨n + 1, Nat.le_succ n, Nat.le_refl _,
      deeds_of_closed (hdeeds ▸ Host.recorded_kill hkill) hnumber⟩
  | unready h _ _ hsync hcloses =>
    obtain ⟨hdeeds, hnumber⟩ := deeds_of_start hw h rfl
    obtain ⟨hsame, hchild⟩ := hsync.deeds
    have hclosed := hcloses.deeds.resolve_right (by simp)
    rw [hsame, hdeeds, hchild _ _ rfl, absorb_child] at hclosed
    exact ⟨n + 1, Nat.le_succ n, Nat.le_refl _, deeds_of_closed hclosed hnumber⟩

/-- No other child is live when the start of a session is cut short or waits without end. -/
theorem Starts.deeds_of_halt (h : Starts host.recorded name profile w (.error reason) later)
    (hw : w.deeds = Deed.history n) : Deed.Orderly later.deeds := by
  cases h with
  | undying h hlaunch hkill =>
    obtain ⟨hdeeds, hnumber⟩ := deeds_of_start hw h hlaunch.child?_eq
    exact ⟨n + 1, .inl (deeds_of_closed (hdeeds ▸ Host.recorded_kill hkill) hnumber)⟩
  | unnamed h hlaunch _ =>
    obtain ⟨child, hchild⟩ := hlaunch.exists_child?
    exact ⟨n, .inr (deeds_of_start hw h hchild).1⟩
  | late h _ _ => exact ⟨n, .inr (deeds_of_start hw h rfl).1⟩
  | halted h _ _ hsync => exact ⟨n, .inr (hsync.deeds.1.trans (deeds_of_start hw h rfl).1)⟩
  | unclosed h _ _ hsync hcloses =>
    obtain ⟨hdeeds, hnumber⟩ := deeds_of_start hw h rfl
    obtain ⟨hsame, hchild⟩ := hsync.deeds
    rcases hcloses.deeds with hclosed | ⟨hclosed, -⟩
    · rw [hsame, hdeeds, hchild _ _ rfl, absorb_child] at hclosed
      exact ⟨n + 1, .inl (deeds_of_closed hclosed hnumber)⟩
    · exact ⟨n, .inr (hclosed.trans (hsame.trans hdeeds))⟩

end Session

/-! ### Interpreters -/

namespace Interpreter

/-- The deeds that bring an interpreter to its state when `n` sessions have ended. A session that is
running holds the child that was started last. -/
def Accounts (n : Nat) (interpreter : Interpreter (Nat × σ)) (deeds : List Deed) : Prop :=
  match interpreter.session with
  | none => deeds = Deed.history n
  | some session => deeds = Deed.history n ++ [.started n] ∧ session.child.1 = n

/-- What running a block does to an interpreter and to the deeds. -/
structure Executed (interpreter : Interpreter (Nat × σ)) (deeds : List Deed)
    (result : Except Error Text) (next : Interpreter (Nat × σ)) (later : List Deed) : Prop where
  isReady_iff : next.isReady = true ↔ ∃ answer, result = .ok answer
  of_isReady : interpreter.isReady = true →
    Deed.starts later = Deed.starts deeds ∧ next.spawnCount = interpreter.spawnCount
  of_not_isReady : interpreter.isReady = false →
    Deed.starts later ≤ Deed.starts deeds + 1 ∧
      interpreter.spawnCount ≤ next.spawnCount ∧ next.spawnCount ≤ interpreter.spawnCount + 1 ∧
      (next.isReady = true → Deed.starts later = Deed.starts deeds + 1 ∧
        next.spawnCount = interpreter.spawnCount + 1)

variable {n : Nat} {interpreter next : Interpreter (Nat × σ)} {session : Session (Nat × σ)}
  {deeds : List Deed} {body dir answer : Text}

theorem Accounts.of_none (h : interpreter.Accounts n deeds) (hnone : interpreter.session = none) :
    deeds = Deed.history n := by
  rwa [Accounts, hnone] at h

theorem Accounts.of_some (h : interpreter.Accounts n deeds)
    (hsome : interpreter.session = some session) :
    deeds = Deed.history n ++ [.started n] ∧ session.child.1 = n := by
  rwa [Accounts, hsome] at h

theorem Accounts.orderly (h : interpreter.Accounts n deeds) : Deed.Orderly deeds := by
  cases hsession : interpreter.session with
  | none => exact ⟨n, .inl (h.of_none hsession)⟩
  | some session => exact ⟨n, .inr (h.of_some hsession).1⟩

theorem Accounts.starts (h : interpreter.Accounts n deeds) :
    Deed.starts deeds = if interpreter.isReady then n + 1 else n := by
  unfold isReady
  cases hsession : interpreter.session with
  | none => rw [h.of_none hsession, Deed.starts_history]; rfl
  | some session => rw [(h.of_some hsession).1, Deed.starts_history_append]; rfl

/-- A session that is running is closed. -/
theorem Stops.accounts (h : Stops host.recorded interpreter w (.ok next) later)
    (haccounts : interpreter.Accounts n w.deeds) :
    later.deeds = Deed.history (if interpreter.isReady then n + 1 else n) := by
  unfold isReady
  cases h with
  | idle hnone => rw [hnone, haccounts.of_none hnone]; rfl
  | closed hsession hcloses =>
    obtain ⟨hdeeds, hnumber⟩ := haccounts.of_some hsession
    rw [hsession]
    exact Session.deeds_of_closed (hdeeds ▸ hcloses.deeds.resolve_right (by simp)) hnumber

/-- No child is live while the output of the last one does not pause. -/
theorem Stops.deeds_of_halt (h : Stops host.recorded interpreter w (.error reason) later)
    (haccounts : interpreter.Accounts n w.deeds) :
    (reason = .clockOverflow ∧ later.deeds = w.deeds) ∨ ∃ k, later.deeds = Deed.history k := by
  cases h with
  | halted hsession hcloses =>
    obtain ⟨hdeeds, hnumber⟩ := haccounts.of_some hsession
    rcases hcloses.deeds with hclosed | ⟨hsame, hreason⟩
    · exact .inr ⟨n + 1, Session.deeds_of_closed (hdeeds ▸ hclosed) hnumber⟩
    · cases hreason
      exact .inl ⟨rfl, hsame⟩

/-- The child of a session that is ready for a block is the one that was started last. -/
theorem Readies.accounts
    (h : Readies host.recorded interpreter w (.ok (.ok session, next)) later)
    (haccounts : interpreter.Accounts n w.deeds) :
    later.deeds = Deed.history n ++ [.started n] ∧ session.child.1 = n := by
  cases h with
  | running hsession => exact haccounts.of_some hsession
  | started hnone hstarts => exact hstarts.deeds_of_ok (haccounts.of_none hnone)

/-- Running a block keeps the deeds accounted for. -/
theorem Executes.accounts {result : Except Error Text}
    (h : Executes host.recorded interpreter body dir w (.ok (result, next)) later)
    (haccounts : interpreter.Accounts n w.deeds) : ∃ k, next.Accounts k later.deeds := by
  cases h with
  | unready hreadies =>
    obtain ⟨rfl, hnone⟩ := hreadies.eq_of_error
    cases hreadies with
    | failed _ hstarts =>
      obtain ⟨k, -, -, hlater⟩ := hstarts.deeds_of_error (haccounts.of_none hnone)
      exact ⟨k, by rwa [Accounts, hnone]⟩
  | answered hreadies hrequests =>
    obtain ⟨hdeeds, hnumber⟩ := hreadies.accounts haccounts
    obtain ⟨hsame, hchild⟩ := hrequests.deeds
    exact ⟨n, hsame.trans hdeeds, (hchild _ _ rfl).trans hnumber⟩
  | failed hreadies hrequests hstops =>
    obtain ⟨hdeeds, hnumber⟩ := hreadies.accounts haccounts
    obtain ⟨hsame, hchild⟩ := hrequests.deeds
    have hlater := hstops.accounts ⟨hsame.trans hdeeds, (hchild _ _ rfl).trans hnumber⟩
    obtain rfl := hstops.eq
    exact ⟨_, hlater⟩

/-- A block for which no session can be made ready starts at most one child. -/
theorem Readies.starts_le
    (h : Readies host.recorded interpreter w (.ok (.error e, next)) later)
    (haccounts : interpreter.Accounts n w.deeds) :
    Deed.starts later.deeds ≤ Deed.starts w.deeds + 1 := by
  cases h with
  | failed hnone hstarts =>
    have hw := haccounts.of_none hnone
    obtain ⟨k, -, hle, hlater⟩ := hstarts.deeds_of_error hw
    rwa [hlater, hw, Deed.starts_history, Deed.starts_history]

/-- The number of children when a session is running that has been started if there was none. -/
theorem Accounts.starts_add (h : interpreter.Accounts n deeds) :
    n + 1 = Deed.starts deeds + if interpreter.isReady then 0 else 1 := by
  rw [h.starts]
  cases interpreter.isReady <;> rfl

theorem Executes.executed {result : Except Error Text}
    (h : Executes host.recorded interpreter body dir w (.ok (result, next)) later)
    (haccounts : interpreter.Accounts n w.deeds) :
    interpreter.Executed w.deeds result next later.deeds := by
  cases h with
  | unready hreadies =>
    have hle := hreadies.starts_le haccounts
    obtain ⟨rfl, hnone⟩ := hreadies.eq_of_error
    have hready : next.isReady = false := by rw [isReady, hnone]; rfl
    exact ⟨by simp [hready], by simp [hready], fun _ ↦
      ⟨hle, Nat.le_refl _, Nat.le_succ _, by simp [hready]⟩⟩
  | answered hreadies hrequests =>
    obtain ⟨hdeeds, -⟩ := hreadies.accounts haccounts
    have hstarts := haccounts.starts_add
    obtain rfl := hreadies.eq_of_ok
    rw [hrequests.deeds.1, hdeeds]
    refine ⟨by simp [isReady], fun hready ↦ ?_, fun hready ↦ ?_⟩ <;>
      simp [hready, Deed.starts_history_append] at hstarts ⊢ <;> omega
  | failed hreadies hrequests hstops =>
    obtain ⟨hdeeds, hnumber⟩ := hreadies.accounts haccounts
    have hstarts := haccounts.starts_add
    obtain ⟨hsame, hchild⟩ := hrequests.deeds
    have hlater := hstops.accounts ⟨hsame.trans hdeeds, (hchild _ _ rfl).trans hnumber⟩
    obtain rfl := hreadies.eq_of_ok
    obtain rfl := hstops.eq
    rw [hlater]
    refine ⟨by simp [isReady], fun hready ↦ ?_, fun hready ↦ ?_⟩ <;>
      simp [isReady] at hready hstarts ⊢ <;> simp [hready] at hstarts ⊢ <;> omega

/-- At most one child is live when a block is cut short or waits without end. -/
theorem Executes.deeds_of_halt
    (h : Executes host.recorded interpreter body dir w (.error reason) later)
    (haccounts : interpreter.Accounts n w.deeds) : Deed.Orderly later.deeds := by
  cases h with
  | unstarted hreadies =>
    cases hreadies with
    | halted hnone hstarts => exact hstarts.deeds_of_halt (haccounts.of_none hnone)
  | halted hreadies hrequests =>
    exact ⟨n, .inr (hrequests.deeds.1.trans (hreadies.accounts haccounts).1)⟩
  | @unstopped ready _ last _ _ _ _ _ hreadies hrequests hstops =>
    obtain ⟨hdeeds, hnumber⟩ := hreadies.accounts haccounts
    obtain ⟨hsame, hchild⟩ := hrequests.deeds
    have hrunning : Accounts n { ready with session := some last } _ :=
      ⟨hsame.trans hdeeds, (hchild _ _ rfl).trans hnumber⟩
    rcases hstops.deeds_of_halt hrunning with ⟨-, hlater⟩ | ⟨k, hlater⟩
    · exact hlater ▸ hrunning.orderly
    · exact ⟨k, .inl hlater⟩

/-- Whatever is called, the deeds remain accounted for. -/
theorem Reaches.accounts {first scene : Scene (Ledger ω)} {commands : List Text}
    (hfirst : first.world.deeds = [])
    (h : Reaches host.recorded name profile first interpreter scene commands) :
    ∃ n, interpreter.Accounts n scene.world.deeds := by
  induction h with
  | new => exact ⟨0, hfirst⟩
  | execute body dir _ hrun ih =>
    obtain ⟨n, haccounts⟩ := ih
    exact ((execute_exits _ _ body dir).of_outcome hrun).accounts haccounts
  | stop _ hrun ih =>
    obtain ⟨n, haccounts⟩ := ih
    have hstops := (stop_exits _ _).of_outcome hrun
    have hlater := hstops.accounts haccounts
    obtain rfl := hstops.eq
    exact ⟨_, hlater⟩

/-- How an interpreter stands between two calls, and what the next call does. -/
structure Orderly (host : Host (Ledger ω) (Nat × σ)) (interpreter : Interpreter (Nat × σ))
    (scene : Scene (Ledger ω)) : Prop where
  /-- The children were closed, each once and before the next one was started, but for the child of
  the running session. -/
  deeds :
    match interpreter.session with
    | none => ∃ n, scene.world.deeds = Deed.history n
    | some session =>
      scene.world.deeds = Deed.history session.child.1 ++ [.started session.child.1]
  /-- There was never more than one child live. -/
  single : Deed.Single scene.world.deeds
  /-- Only something that is waited for without end keeps a block from coming to a result. -/
  execute : ∀ body dir,
    match (interpreter.execute host body dir).outcome scene with
    | (.ok (result, next), later) =>
      interpreter.Executed scene.world.deeds result next later.world.deeds
    | (.error reason, later) =>
      host.Hangs interpreter.profile later.world reason ∧ Deed.Single later.world.deeds
  /-- Stopping, which also comes when an interpreter is given up, leaves no child behind, also if
  the output of the last one is waited for without end, and stopping twice is stopping once. -/
  stop :
    match (interpreter.stop host).outcome scene with
    | (.ok next, later) =>
      next.isReady = false ∧ (∃ n, later.world.deeds = Deed.history n) ∧
        (next.stop host).outcome later = (.ok next, later)
    | (.error reason, later) =>
      host.Hangs interpreter.profile later.world reason ∧ ∃ n, later.world.deeds = Deed.history n

theorem Accounts.stands {now : Nat} (hclock : ∀ world, host.clock world ≤ now)
    (hsafe : interpreter.profile.IsSafe interpreter.name now) (hsound : interpreter.Sound)
    {scene : Scene (Ledger ω)} (h : interpreter.Accounts n scene.world.deeds) :
    interpreter.Orderly host.recorded scene := by
  have htimely : ¬host.recorded.Overruns interpreter.name interpreter.profile :=
    fun hover ↦ hover now (fun ledger ↦ hclock ledger.world) hsafe
  refine ⟨?_, h.orderly.single, fun body dir ↦ ?_, ?_⟩
  · cases hsession : interpreter.session with
    | none => exact ⟨n, h.of_none hsession⟩
    | some session =>
      obtain ⟨hdeeds, hchild⟩ := h.of_some hsession
      rwa [← hchild] at hdeeds
  · rcases hrun : (interpreter.execute host.recorded body dir).outcome scene with ⟨result, later⟩
    have hexecutes := (execute_exits _ _ body dir).of_outcome hrun
    cases result with
    | ok answered => exact hexecutes.executed h
    | error reason =>
      exact ⟨(hexecutes.halt hsound).resolve_right htimely, (hexecutes.deeds_of_halt h).single⟩
  · rcases hrun : (interpreter.stop host.recorded).outcome scene with ⟨result, later⟩
    have hstops := (stop_exits _ _).of_outcome hrun
    cases result with
    | ok next =>
      have hlater := hstops.accounts h
      obtain rfl := hstops.eq
      exact ⟨rfl, ⟨_, hlater⟩, rfl⟩
    | error reason =>
      have hhangs := (hstops.halt hsound).resolve_right htimely
      refine ⟨hhangs, (hstops.deeds_of_halt h).resolve_left ?_⟩
      rintro ⟨rfl, -⟩
      cases hhangs

end Interpreter

/-- The life of the sessions of an interpreter that is new before anything has been done to a child:
it stays orderly, whatever the children do. -/
def Lifecycle (host : Host ω σ) (name : Text) (profile : Profile) : Prop :=
  ∀ first interpreter scene commands, first.world.deeds = [] →
    Interpreter.Reaches host.recorded name profile first interpreter scene commands →
    interpreter.Orderly host.recorded scene

theorem Profile.IsSafe.lifecycle {now : Nat} (hsafe : profile.IsSafe name now) (host : Host ω σ)
    (hclock : ∀ world, host.clock world ≤ now) : Lifecycle host name profile := by
  intro first interpreter scene commands hfirst hreaches
  obtain ⟨rfl, rfl, hsound⟩ := hreaches.sound
  obtain ⟨n, haccounts⟩ := hreaches.accounts hfirst
  exact haccounts.stands hclock hsafe hsound

end Weave
