import Mathlib.Data.List.Count
import Weave.Proofs.Lifecycle
import Weave.Proofs.Pairing

/-!
# Children that are counted

An interpreter tries to start a child whenever it is to run a block and no session is running. A
child that has been started acknowledges this when it takes the command for the sentinel and the
marker is among the lines that it has printed by then. The interpreter counts the children that
acknowledge their start, and no others, so that its number is that of the children that have been
started exactly if none of them has failed to.

## Main definitions

* `Weave.Host.spawns`, `Weave.Host.acknowledges`: what comes of the attempt to start a child.
* `Weave.Interpreter.Attempts`: the attempts that an interpreter has made.

## Main results

* `Weave.Interpreter.Executes.counted`: what one call adds to the two numbers.
* `Weave.Interpreter.Attempts.spawnCount_eq`: what they are after any calls.
* `Weave.Interpreter.Reaches.spawnCount_counts`: when they are the same.
* `Weave.Interpreter.spawnCount_omits`: a child that is not counted.
-/

namespace Weave

variable {ω σ : Type}

/-! ### Attempts to start a child -/

/-- Whether the marker is among the lines that wait when a line has been sent to the child. -/
def Session.isMarked (profile : Profile) (session : Session σ) : Option (Delivery σ) → Bool
  | some (.taken reply) => (session.absorb reply).queue.any (Text.holds profile.readyMarker)
  | _ => false

/-- Whether the child makes the marker wait when it is sent the command for the sentinel. -/
def Session.acknowledges (host : Host ω σ) (profile : Profile) (session : Session σ) (world : ω) :
    Bool :=
  session.isMarked profile
    (host.send world session.child profile.echoCommand profile.timeoutSecs).1

/-- Whether a child is started. -/
def Host.spawns (host : Host ω σ) (profile : Profile) (world : ω) : Bool :=
  (host.start world profile.command profile.args profile.timeoutSecs).1.child?.isSome

/-- Whether a child is started and acknowledges this. One whose output cannot be had does not. -/
def Host.acknowledges (host : Host ω σ) (profile : Profile) (world : ω) : Bool :=
  match host.start world profile.command profile.args profile.timeoutSecs with
  | (.running reaction, later) =>
    (({ child := reaction.child } : Session σ).absorb reaction).acknowledges host profile later
  | _ => false

section Acknowledging

variable {host : Host ω σ} {name : Text} {profile : Profile} {w later : ω}

/-- Only a child that is started acknowledges this. -/
theorem Host.spawns_of_acknowledges (h : host.acknowledges profile w = true) :
    host.spawns profile w = true := by
  unfold acknowledges at h
  unfold spawns
  split at h
  · rw [‹host.start w _ _ _ = _›]
    rfl
  · cases h

/-- The children that are started are those that acknowledge this and those that do not. -/
theorem Host.countP_spawns (ledgers : List (Ledger ω)) :
    ledgers.countP (host.spawns profile ·.world) =
      ledgers.countP (host.acknowledges profile ·.world) +
        ledgers.countP fun ledger ↦
          host.spawns profile ledger.world && !host.acknowledges profile ledger.world := by
  rw [List.countP_eq_countP_filter_add _ _ (host.acknowledges profile ·.world), List.countP_filter,
    List.countP_filter]
  congr 2
  funext ledger
  cases hacknowledges : host.acknowledges profile ledger.world with
  | true => rw [spawns_of_acknowledges hacknowledges, Bool.and_true]
  | false => exact Bool.and_false _

namespace Session

variable {session last : Session σ}

/-- An answer is found if the marker is among the lines that wait. -/
theorem Reads.isOk {result : Except Error Text}
    (h : Reads name profile session (.ok (result, last))) :
    result.isOk = session.queue.any (Text.holds profile.readyMarker) := by
  have hunmarked (hnone : collect? profile.readyMarker profile.prompt session.queue = none) :
      session.queue.any (Text.holds profile.readyMarker) = false :=
    List.any_eq_false.mpr fun line hline ↦ by simp [collect?_eq_none_iff.mp hnone line hline]
  cases h with
  | answered hcollect =>
    obtain ⟨before, line, hqueue, -, hline, -⟩ := collect?_eq_some_iff.mp hcollect
    refine (List.any_eq_true.mpr ⟨line, ?_, hline⟩).symm
    rw [hqueue]
    exact List.mem_append_right _ List.mem_cons_self
  | exited hnone _ => exact (hunmarked hnone).symm
  | late hnone _ _ => exact (hunmarked hnone).symm

/-- A session is synchronized if its child makes the marker wait. -/
theorem Synchronizes.isOk {result : Except Error Text}
    (h : Synchronizes host name profile session w (.ok (result, last)) later) :
    result.isOk = session.acknowledges host profile w := by
  unfold acknowledges
  cases h with
  | unsent hsends =>
    cases hsends with
    | closed hclosed => rw [hclosed]; rfl
    | failed hfailed => rw [hfailed]; rfl
  | read hsends hreads =>
    cases hsends with
    | taken htaken =>
      rw [htaken]
      exact hreads.isOk

/-- A session is started if a child is started and acknowledges this. -/
theorem Starts.isOk {result : Except Error (Session σ)}
    (h : Starts host name profile w (.ok result) later) :
    result.isOk = host.acknowledges profile w := by
  unfold Host.acknowledges
  cases h with
  | failed hstart => rw [hstart]; rfl
  | discarded hstart hlaunch _ => rw [hstart]; cases hlaunch <;> rfl
  | ready hstart _ _ hsync => rw [hstart]; exact hsync.isOk
  | unready hstart _ _ hsync _ => rw [hstart]; exact hsync.isOk

end Session

end Acknowledging

/-! ### Starts in the ledger -/

section Ledgers

variable {host : Host ω σ} {name : Text} {profile : Profile} {ledger later : Ledger ω}

theorem Deed.starts_append_closed (deeds : List Deed) (child : Nat) :
    starts (deeds ++ [.closed child]) = starts deeds := by
  rw [starts, List.countP_append]
  rfl

variable (host profile) in
/-- With the ledger, a child is started as without. -/
theorem Host.spawns_recorded (ledger : Ledger ω) :
    host.recorded.spawns profile ledger = host.spawns profile ledger.world := by
  unfold spawns
  change ((host.start ledger.world _ _ _).1.map _).child?.isSome = _
  rw [Launch.child?_map, Option.isSome_map]

theorem Session.isMarked_map (session : Session (Nat × σ)) (number : Nat)
    (delivery : Option (Delivery σ)) :
    session.isMarked profile (delivery.map (Delivery.map (number, ·))) =
      (session.map Prod.snd).isMarked profile delivery := by
  rcases delivery with _ | reply | _ | _
  · rfl
  · change List.any ((session.absorb _).map Prod.snd).queue _ = _
    rw [Session.map_absorb]
    rfl
  · rfl
  · rfl

theorem Session.acknowledges_recorded (session : Session (Nat × σ)) (ledger : Ledger ω) :
    session.acknowledges host.recorded profile ledger =
      (session.map Prod.snd).acknowledges host profile ledger.world :=
  session.isMarked_map _ _

variable (host profile) in
/-- With the ledger, a child acknowledges its start as without. -/
theorem Host.acknowledges_recorded (ledger : Ledger ω) :
    host.recorded.acknowledges profile ledger = host.acknowledges profile ledger.world := by
  unfold acknowledges
  rcases hstart : host.start ledger.world profile.command profile.args profile.timeoutSecs with
    ⟨launch, world⟩
  rcases hrecorded : host.recorded.start ledger profile.command profile.args profile.timeoutSecs
    with ⟨numbered, later⟩
  obtain ⟨hlaunch, hworld⟩ := Host.recorded_start_eq hstart hrecorded
  subst hlaunch hworld
  cases launch with
  | running reaction =>
    refine (Session.acknowledges_recorded _ later).trans ?_
    rw [Session.map_absorb]
    rfl
  | _ => rfl

/-- A start is written down if a child is started. -/
theorem starts_of_start {launch : Launch (Nat × σ)}
    (h : host.recorded.start ledger profile.command profile.args profile.timeoutSecs =
      (launch, later)) :
    Deed.starts later.deeds = Deed.starts ledger.deeds +
      (host.spawns profile ledger.world).toNat := by
  rw [← host.spawns_recorded profile ledger, Host.spawns, h, (Host.recorded_start h).1, Deed.starts,
    List.countP_append]
  cases launch.child? <;> rfl

/-- No start is written down when a session is closed. -/
theorem Session.Closes.starts_eq {session : Session (Nat × σ)} {grace : Nat}
    (h : Closes host.recorded grace session ledger (.ok ()) later) :
    Deed.starts later.deeds = Deed.starts ledger.deeds := by
  rw [h.deeds.resolve_right (by simp), Deed.starts_append_closed]

theorem Session.Starts.starts_eq {result : Except Error (Session (Nat × σ))}
    (h : Starts host.recorded name profile ledger (.ok result) later) :
    Deed.starts later.deeds = Deed.starts ledger.deeds +
      (host.spawns profile ledger.world).toNat := by
  cases h with
  | failed hstart => exact starts_of_start hstart
  | discarded hstart _ hkill =>
    rw [Host.recorded_kill hkill, Deed.starts_append_closed, starts_of_start hstart]
  | ready hstart _ _ hsync => rw [hsync.deeds.1, starts_of_start hstart]
  | unready hstart _ _ hsync hcloses =>
    rw [hcloses.starts_eq, hsync.deeds.1, starts_of_start hstart]

end Ledgers

/-! ### Calls -/

namespace Interpreter

variable {host : Host ω σ} {interpreter next : Interpreter (Nat × σ)} {ledger later : Ledger ω}

/-- What a call has added to the number of an interpreter and to that of the children that have been
started: nothing if a session was running, and otherwise what has come of one attempt. -/
structure Counted (host : Host ω σ) (interpreter : Interpreter (Nat × σ)) (ledger : Ledger ω)
    (next : Interpreter (Nat × σ)) (later : Ledger ω) : Prop where
  spawnCount : next.spawnCount = interpreter.spawnCount +
    if interpreter.isReady then 0
    else (host.acknowledges interpreter.profile ledger.world).toNat
  starts : Deed.starts later.deeds = Deed.starts ledger.deeds +
    if interpreter.isReady then 0 else (host.spawns interpreter.profile ledger.world).toNat

theorem Readies.counted {result : Except Error (Session (Nat × σ))}
    (h : Readies host.recorded interpreter ledger (.ok (result, next)) later) :
    interpreter.Counted host ledger next later := by
  have hready (hnone : interpreter.session = none) : interpreter.isReady = false := by
    rw [isReady, hnone]
    rfl
  cases h with
  | running hsession =>
    have hready : interpreter.isReady = true := by rw [isReady, hsession]; rfl
    exact ⟨by simp [hready], by simp [hready]⟩
  | started hnone hstarts =>
    refine ⟨?_, ?_⟩
    · rw [hready hnone, ← host.acknowledges_recorded, ← hstarts.isOk]
      rfl
    · rw [hready hnone, hstarts.starts_eq]
      rfl
  | failed hnone hstarts =>
    refine ⟨?_, ?_⟩
    · rw [hready hnone, ← host.acknowledges_recorded, ← hstarts.isOk]
      rfl
    · rw [hready hnone, hstarts.starts_eq]
      rfl

/-- No child is started when an interpreter is stopped. -/
theorem Stops.starts_eq (h : Stops host.recorded interpreter ledger (.ok next) later) :
    Deed.starts later.deeds = Deed.starts ledger.deeds := by
  cases h with
  | idle _ => rfl
  | closed _ hcloses => exact hcloses.starts_eq

/-- **One call.** Running a block makes an attempt to start a child if no session is running, and
counts the child if it acknowledges its start. -/
theorem Executes.counted {body dir : Text} {result : Except Error Text}
    (h : Executes host.recorded interpreter body dir ledger (.ok (result, next)) later) :
    interpreter.Counted host ledger next later := by
  cases h with
  | unready hreadies => exact hreadies.counted
  | answered hreadies hrequests =>
    obtain ⟨hcount, hstarts⟩ := hreadies.counted
    exact ⟨hcount, hrequests.deeds.1 ▸ hstarts⟩
  | failed hreadies hrequests hstops =>
    obtain ⟨hcount, hstarts⟩ := hreadies.counted
    refine ⟨?_, ?_⟩
    · rw [hstops.eq]
      exact hcount
    · rw [hstops.starts_eq, hrequests.deeds.1, hstarts]

/-! ### States between calls -/

variable {name : Text} {profile : Profile} {first scene : Scene ω} {commands : List Text}

/-- The states between two calls of an interpreter that is new in the scene `first`, with the worlds
in which it has tried to start a child, in order. -/
inductive Attempts (host : Host ω σ) (name : Text) (profile : Profile) (first : Scene ω) :
    Interpreter σ → Scene ω → List ω → Prop
  | new : Attempts host name profile first { name, profile } first []
  | execute {interpreter next : Interpreter σ} {scene later : Scene ω} {attempts : List ω}
      {result : Except Error Text} (body dir : Text)
      (h : Attempts host name profile first interpreter scene attempts)
      (hrun : (interpreter.execute host body dir).outcome scene = (.ok (result, next), later)) :
      Attempts host name profile first next later
        (if interpreter.isReady then attempts else attempts ++ [scene.world])
  | stop {interpreter next : Interpreter σ} {scene later : Scene ω} {attempts : List ω}
      (h : Attempts host name profile first interpreter scene attempts)
      (hrun : (interpreter.stop host).outcome scene = (.ok next, later)) :
      Attempts host name profile first next later attempts

theorem Reaches.exists_attempts {interpreter : Interpreter σ}
    (h : Reaches host name profile first interpreter scene commands) :
    ∃ attempts, Attempts host name profile first interpreter scene attempts := by
  induction h with
  | new => exact ⟨[], .new⟩
  | execute body dir _ hrun ih =>
    obtain ⟨attempts, hattempts⟩ := ih
    exact ⟨_, .execute body dir hattempts hrun⟩
  | stop _ hrun ih =>
    obtain ⟨attempts, hattempts⟩ := ih
    exact ⟨attempts, .stop hattempts hrun⟩

/-- **Any calls.** The number of an interpreter is that of the attempts that were acknowledged, and
the ledger lists one start for each attempt that started a child. -/
theorem Attempts.spawnCount_eq {first scene : Scene (Ledger ω)} {attempts : List (Ledger ω)}
    (hfirst : first.world.deeds = [])
    (h : Attempts host.recorded name profile first interpreter scene attempts) :
    interpreter.profile = profile ∧
    interpreter.spawnCount = attempts.countP (host.acknowledges profile ·.world) ∧
    Deed.starts scene.world.deeds = attempts.countP (host.spawns profile ·.world) := by
  induction h with
  | new => exact ⟨rfl, rfl, by rw [hfirst]; rfl⟩
  | @execute interpreter next scene later attempts result body dir _ hrun ih =>
    obtain ⟨rfl, hcount, hstarts⟩ := ih
    have hexecutes := (interpreter.execute_exits host.recorded body dir).of_outcome hrun
    have hcounted := hexecutes.counted
    refine ⟨hexecutes.keeps.2, ?_, ?_⟩
    · rw [hcounted.spawnCount, hcount]
      split
      · rfl
      · rw [List.countP_append, List.countP_singleton]
        cases host.acknowledges interpreter.profile scene.world.world <;> rfl
    · rw [hcounted.starts, hstarts]
      split
      · rfl
      · rw [List.countP_append, List.countP_singleton]
        cases host.spawns interpreter.profile scene.world.world <;> rfl
  | @stop interpreter next scene later attempts _ hrun ih =>
    obtain ⟨rfl, hcount, hstarts⟩ := ih
    have hstops := (interpreter.stop_exits host.recorded).of_outcome hrun
    have hlater := hstops.starts_eq.trans hstarts
    obtain rfl := hstops.eq
    exact ⟨rfl, hcount, hlater⟩

/-- **Children that are counted.** In every state between two calls, the number of an interpreter is
that of the children that have acknowledged their start. It is the number of the children that have
been started exactly if each of them has. -/
theorem Reaches.spawnCount_counts {first scene : Scene (Ledger ω)}
    (hfirst : first.world.deeds = [])
    (h : Reaches host.recorded name profile first interpreter scene commands) :
    (∃ attempts, Attempts host.recorded name profile first interpreter scene attempts) ∧
    ∀ attempts, Attempts host.recorded name profile first interpreter scene attempts →
      interpreter.spawnCount = attempts.countP (host.acknowledges profile ·.world) ∧
      Deed.starts scene.world.deeds = attempts.countP (host.spawns profile ·.world) ∧
      (interpreter.spawnCount = Deed.starts scene.world.deeds ↔
        ∀ ledger ∈ attempts, host.spawns profile ledger.world = true →
          host.acknowledges profile ledger.world = true) := by
  refine ⟨h.exists_attempts, fun attempts hattempts ↦ ?_⟩
  obtain ⟨-, hcount, hstarts⟩ := hattempts.spawnCount_eq hfirst
  refine ⟨hcount, hstarts, ?_⟩
  rw [hcount, hstarts, host.countP_spawns, Nat.left_eq_add, List.countP_eq_zero]
  simp

end Interpreter

/-! ### A child that falters -/

/-- The host whose first child reads nothing, and whose other ones print the number signs whenever
they are sent a line. The world is the number of its children. -/
def Host.faltering : Host Nat Bool where
  clock _ := 0
  readText _ _ := .error []
  isDirectory _ _ := false
  runCommand count _ _ _ := (some (.error []), count)
  start count _ _ _ := (.running ⟨count != 0, [], false⟩, count + 1)
  send count isAwake _ _ :=
    (some (if isAwake then .taken ⟨true, Line.printed [Greeter.marker], false⟩ else .closed), count)
  finish count _ _ := (some .exited, count)
  kill count _ := (some (), count)

namespace Interpreter

/-- The number of the interpreter and that of the children that have been started when some blocks
have been run in the root directory. -/
def tally (blocks : List Text) : Option (Nat × Nat) :=
  match (({ name := "repl".toList, profile := Greeter.profile } :
    Interpreter (Nat × Bool)).executeAll Host.faltering.recorded
      (blocks.map fun body ↦ (body, ['/']))).outcome { world := { world := 0 } } with
  | (.ok (_, last), later) => some (last.spawnCount, Deed.starts later.world.deeds)
  | (.error _, _) => none

theorem exists_reaches_of_tally {blocks : List Text} {counted started : Nat}
    (h : tally blocks = some (counted, started)) :
    ∃ interpreter scene commands,
      Reaches Host.faltering.recorded "repl".toList Greeter.profile { world := { world := 0 } }
        interpreter scene commands ∧
      interpreter.spawnCount = counted ∧ Deed.starts scene.world.deeds = started := by
  unfold tally at h
  split at h
  · obtain ⟨rfl, rfl⟩ := Prod.mk.inj (Option.some.inj h)
    obtain ⟨commands, hreaches⟩ := (executeAll_reaches _).result ⟨[], .new⟩ ‹_ = (_, _)›
    exact ⟨_, _, commands, hreaches, rfl, rfl⟩
  · cases h

/-- When two blocks have been run, one of two children is counted, as the first one has not
acknowledged its start. -/
theorem spawnCount_faltering : ∃ interpreter scene commands attempts,
    Reaches Host.faltering.recorded "repl".toList Greeter.profile { world := { world := 0 } }
      interpreter scene commands ∧
    Attempts Host.faltering.recorded "repl".toList Greeter.profile { world := { world := 0 } }
      interpreter scene attempts ∧
    attempts.countP (Host.faltering.acknowledges Greeter.profile ·.world) = 1 ∧
    attempts.countP (Host.faltering.spawns Greeter.profile ·.world) = 2 ∧
    ∃ ledger ∈ attempts, Host.faltering.spawns Greeter.profile ledger.world = true ∧
      Host.faltering.acknowledges Greeter.profile ledger.world = false := by
  have htally : tally ["echo hello".toList, "echo hello".toList] = some (1, 2) := by
    decide +kernel
  obtain ⟨interpreter, scene, commands, hreaches, hcounted, hstarted⟩ :=
    exists_reaches_of_tally htally
  obtain ⟨⟨attempts, hattempts⟩, hcounts⟩ := hreaches.spawnCount_counts rfl
  obtain ⟨hcount, hstarts, hiff⟩ := hcounts attempts hattempts
  have hne : interpreter.spawnCount ≠ Deed.starts scene.world.deeds := by
    rw [hcounted, hstarted]
    decide
  refine ⟨interpreter, scene, commands, attempts, hreaches, hattempts, hcount ▸ hcounted,
    hstarts ▸ hstarted, ?_⟩
  simpa using mt hiff.mpr hne

/-- When one block has been run, the child that has been started for it is not counted. -/
theorem spawnCount_omits : ∃ interpreter scene commands,
    Reaches Host.faltering.recorded "repl".toList Greeter.profile { world := { world := 0 } }
      interpreter scene commands ∧
    interpreter.spawnCount = 0 ∧ Deed.starts scene.world.deeds = 1 :=
  exists_reaches_of_tally (by decide +kernel : tally ["echo hello".toList] = some (0, 1))

end Interpreter

end Weave
