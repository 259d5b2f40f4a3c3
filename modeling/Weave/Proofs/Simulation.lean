import Weave.Proofs.Ensures
import Weave.Run.Interpreter

/-!
# Children that stand for others

One host mimics another for a profile if the children of the one do what the children do that stand
for them. Then so do the interpreters. The simulation is exact if the hosts also agree on the time
and on how children end; otherwise only results and halts are the same, but not the log, and not
whether a deadline is too far ahead.

## Main definitions

* `Weave.Host.Mimics`: the hosts just described.
* `Weave.Task.Mimics`: tasks that come to results that stand for each other.
* `Weave.Session.Like`, `Weave.Interpreter.Like`: sessions and interpreters that stand for each
  other.

## Main results

* `Weave.Interpreter.execute_mimics`, `Weave.Interpreter.stop_mimics`: interpreters that stand for
  each other do the same.
-/

namespace Weave

variable {ω ω' σ τ α β : Type}

/-! ### Results that stand for each other -/

/-- The same error, or results that stand for each other. -/
inductive Agree {ε : Type} (like : α → β → Prop) : Except ε α → Except ε β → Prop
  | ok {a : α} {b : β} (h : like a b) : Agree like (.ok a) (.ok b)
  | error (e : ε) : Agree like (.error e) (.error e)

/-- The same output of children that stand for each other. -/
structure Reaction.Like (children : σ → τ → Prop) (reaction : Reaction σ) (other : Reaction τ) :
    Prop where
  child : children reaction.child other.child
  output : reaction.output = other.output
  ended : reaction.ended = other.ended

/-- The same launch of children that stand for each other. -/
inductive Launch.Like (children : σ → τ → Prop) : Launch σ → Launch τ → Prop
  | failed (reason : Text) : Like children (.failed reason) (.failed reason)
  | uncaptured {child : σ} {other : τ} (h : children child other) :
      Like children (.uncaptured child) (.uncaptured other)
  | unread {child : σ} {other : τ} (h : children child other) (reason : Text) :
      Like children (.unread child reason) (.unread other reason)
  | running {reaction : Reaction σ} {other : Reaction τ} (h : reaction.Like children other) :
      Like children (.running reaction) (.running other)

/-- The same delivery to children that stand for each other. -/
inductive Delivery.Like (children : σ → τ → Prop) : Delivery σ → Delivery τ → Prop
  | taken {reaction : Reaction σ} {other : Reaction τ} (h : reaction.Like children other) :
      Like children (.taken reaction) (.taken other)
  | closed : Like children .closed .closed
  | failed (reason : Text) : Like children (.failed reason) (.failed reason)

/-- In worlds that stand for each other, the children of `image` for a profile do what those of
`host` do, and remain such children. If the simulation is exact, the clocks and the ends of children
agree, too. -/
structure Host.Mimics (host : Host ω σ) (image : Host ω' τ) (profile : Profile)
    (worlds : ω → ω' → Prop) (children : σ → τ → Prop) (exact : Prop) : Prop where
  clock_le : ∀ w v, worlds w v → image.clock v ≤ host.clock w
  clock_ge : exact → ∀ w v, worlds w v → host.clock w ≤ image.clock v
  start : ∀ w v, worlds w v →
    (host.start w profile.command profile.args profile.timeoutSecs).1.Like children
      (image.start v profile.command profile.args profile.timeoutSecs).1 ∧
    worlds (host.start w profile.command profile.args profile.timeoutSecs).2
      (image.start v profile.command profile.args profile.timeoutSecs).2
  send : ∀ w v child other line, worlds w v → children child other →
    Option.Rel (Delivery.Like children) (host.send w child line profile.timeoutSecs).1
      (image.send v other line profile.timeoutSecs).1 ∧
    worlds (host.send w child line profile.timeoutSecs).2
      (image.send v other line profile.timeoutSecs).2
  finish : ∀ w v child other grace, worlds w v → children child other →
    Option.Rel (fun ending ending' ↦ exact → ending = ending') (host.finish w child grace).1
      (image.finish v other grace).1 ∧
    worlds (host.finish w child grace).2 (image.finish v other grace).2
  kill : ∀ w v child other, worlds w v → children child other →
    (host.kill w child).1 = (image.kill v other).1 ∧
    worlds (host.kill w child).2 (image.kill v other).2

/-! ### Tasks that stand for each other -/

/-- Worlds that stand for each other, and the same log if the simulation is exact. -/
structure Scene.Like (worlds : ω → ω' → Prop) (exact : Prop) (scene : Scene ω)
    (other : Scene ω') : Prop where
  world : worlds scene.world other.world
  log : exact → scene.log = other.log

/-- From scenes that stand for each other, if a task comes to a result, its image comes to one that
stands for it, and if it comes to a halt, so does its image, unless the simulation is not exact and
a deadline is too far ahead. -/
def Task.Mimics (worlds : ω → ω' → Prop) (exact : Prop) (task : Task ω α) (image : Task ω' β)
    (like : α → β → Prop) : Prop :=
  ∀ scene other, Scene.Like worlds exact scene other →
    match task.outcome scene with
    | (.ok a, later) => ∃ b last, image.outcome other = (.ok b, last) ∧ like a b ∧
        Scene.Like worlds exact later last
    | (.error reason, later) => exact ∨ reason ≠ .clockOverflow →
        ∃ last, image.outcome other = (.error reason, last) ∧ Scene.Like worlds exact later last

namespace Task.Mimics

variable {worlds : ω → ω' → Prop} {exact : Prop} {like : α → β → Prop}

theorem result {task : Task ω α} {image : Task ω' β} (h : task.Mimics worlds exact image like)
    {scene later : Scene ω} {other : Scene ω'} {a : α} (hlike : Scene.Like worlds exact scene other)
    (hrun : task.outcome scene = (.ok a, later)) :
    ∃ b last, image.outcome other = (.ok b, last) ∧ like a b ∧
      Scene.Like worlds exact later last := by
  have hscene := h scene other hlike
  rwa [hrun] at hscene

theorem halt {task : Task ω α} {image : Task ω' β} (h : task.Mimics worlds exact image like)
    {scene later : Scene ω} {other : Scene ω'} {reason : Halt}
    (hlike : Scene.Like worlds exact scene other)
    (hrun : task.outcome scene = (.error reason, later)) :
    exact ∨ reason ≠ .clockOverflow →
      ∃ last, image.outcome other = (.error reason, last) ∧ Scene.Like worlds exact later last := by
  have hscene := h scene other hlike
  rwa [hrun] at hscene

theorem pure {a : α} {b : β} (h : like a b) :
    (Pure.pure a : Task ω α).Mimics worlds exact (Pure.pure b : Task ω' β) like :=
  fun _ other hlike ↦ ⟨b, other, rfl, h, hlike⟩

theorem bind {γ δ : Type} {task : Task ω α} {image : Task ω' β} {next : α → Task ω γ}
    {imageNext : β → Task ω' δ} {likeNext : γ → δ → Prop}
    (h : task.Mimics worlds exact image like)
    (hnext : ∀ a b, like a b → (next a).Mimics worlds exact (imageNext b) likeNext) :
    (task >>= next).Mimics worlds exact (image >>= imageNext) likeNext := by
  intro scene other hlike
  rw [outcome_bind, outcome_bind]
  rcases hrun : task.outcome scene with ⟨result, later⟩
  cases result with
  | ok a =>
    obtain ⟨b, last, himage, hab, hlater⟩ := h.result hlike hrun
    rw [himage]
    exact hnext a b hab later last hlater
  | error reason =>
    intro hreason
    obtain ⟨last, himage, hlater⟩ := h.halt hlike hrun hreason
    exact ⟨last, by rw [himage], hlater⟩

theorem weaken {task : Task ω α} {image : Task ω' β} {like' : α → β → Prop}
    (h : task.Mimics worlds exact image like) (hlike : ∀ a b, like a b → like' a b) :
    task.Mimics worlds exact image like' := by
  intro scene other hscene
  rcases hrun : task.outcome scene with ⟨result, later⟩
  cases result with
  | ok a =>
    obtain ⟨b, last, himage, hab, hlater⟩ := h.result hscene hrun
    exact ⟨b, last, himage, hlike a b hab, hlater⟩
  | error reason => exact h.halt hscene hrun

theorem halted (reason : Halt) : (Task.halt reason : Task ω α).Mimics worlds exact
    (Task.halt reason : Task ω' β) like := fun _ other hlike _ ↦ ⟨other, rfl, hlike⟩

theorem emit (event : Event) : (Task.emit event : Task ω Unit).Mimics worlds exact
    (Task.emit event : Task ω' Unit) fun _ _ ↦ True :=
  fun _ _ hlike ↦ ⟨(), _, rfl, trivial, hlike.world, fun h ↦ congrArg (· ++ [event]) (hlike.log h)⟩

/-- Where the log does not count, tasks that write to it only do the same. -/
theorem emits {task : Task ω Unit} {image : Task ω' Unit} (h : ¬exact)
    (htask : ∀ scene, ∃ log, task.outcome scene = (.ok (), { scene with log }))
    (himage : ∀ scene, ∃ log, image.outcome scene = (.ok (), { scene with log })) :
    task.Mimics worlds exact image fun _ _ ↦ True := by
  intro scene other hlike
  obtain ⟨log, hlog⟩ := htask scene
  obtain ⟨log', hlog'⟩ := himage other
  rw [hlog]
  exact ⟨(), _, hlog', trivial, hlike.world, fun hexact ↦ absurd hexact h⟩

theorem act {change : ω → α × ω} {imageChange : ω' → β × ω'}
    (h : ∀ w v, worlds w v →
      like (change w).1 (imageChange v).1 ∧ worlds (change w).2 (imageChange v).2) :
    (Task.act change).Mimics worlds exact (Task.act imageChange) like := by
  intro scene other hlike
  obtain ⟨hab, hworlds⟩ := h scene.world other.world hlike.world
  exact ⟨_, _, rfl, hab, hworlds, hlike.log⟩

theorem await {reason : Halt} {change : ω → Option α × ω} {imageChange : ω' → Option β × ω'}
    (h : ∀ w v, worlds w v →
      Option.Rel like (change w).1 (imageChange v).1 ∧ worlds (change w).2 (imageChange v).2) :
    (Task.await reason change).Mimics worlds exact (Task.await reason imageChange) like := by
  refine (act h).bind ?_
  rintro _ _ (hab | _)
  · exact .pure hab
  · exact .halted reason

end Task.Mimics

/-! ### Sessions that stand for each other -/

namespace Session

/-- The same output of children that stand for each other. -/
structure Like (children : σ → τ → Prop) (session : Session σ) (other : Session τ) : Prop where
  child : children session.child other.child
  queue : session.queue = other.queue
  unfinished : session.unfinished = other.unfinished
  ended : session.ended = other.ended

theorem Like.absorb {children : σ → τ → Prop} {session : Session σ} {other : Session τ}
    {reaction : Reaction σ} {reaction' : Reaction τ} (h : session.Like children other)
    (hreaction : reaction.Like children reaction') :
    (session.absorb reaction).Like children (other.absorb reaction') := by
  obtain ⟨child, queue, unfinished, ended⟩ := session
  obtain ⟨child', queue', unfinished', ended'⟩ := other
  obtain ⟨hchild, rfl, rfl, rfl⟩ := h
  obtain ⟨next, output, last⟩ := reaction
  obtain ⟨next', output', last'⟩ := reaction'
  obtain ⟨hnext, rfl, rfl⟩ := hreaction
  cases last <;> exact ⟨hnext, rfl, rfl, rfl⟩

section Mimics

variable {host : Host ω σ} {image : Host ω' τ} {profile : Profile} {worlds : ω → ω' → Prop}
  {children : σ → τ → Prop} {exact : Prop} {name : Text} {session : Session σ}
  {other : Session τ}

theorem checkName_mimics : (checkName name : Task ω Unit).Mimics worlds exact
    (checkName name : Task ω' Unit) fun _ _ ↦ True := by
  unfold checkName
  split
  · exact .halted .readerName
  · exact .pure trivial

/-- The lines that wait decide what is taken from them. -/
theorem readAnswer_mimics (h : session.Like children other) :
    (readAnswer name profile session : Task ω _).Mimics worlds exact
      (readAnswer name profile other)
      fun (result, next) (result', next') ↦ result = result' ∧ next.Like children next' := by
  obtain ⟨child, queue, unfinished, ended⟩ := session
  obtain ⟨child', queue', unfinished', ended'⟩ := other
  obtain ⟨hchild, rfl, rfl, rfl⟩ := h
  unfold readAnswer
  dsimp only
  cases collect? profile.readyMarker profile.prompt queue with
  | some found => exact .pure ⟨rfl, hchild, rfl, rfl, rfl⟩
  | none =>
    dsimp only
    split
    · exact .pure ⟨rfl, hchild, rfl, rfl, rfl⟩
    · cases profile.timeoutSecs with
      | some seconds => exact .pure ⟨rfl, hchild, rfl, rfl, rfl⟩
      | none => exact .halted .endlessWait

variable (hmimics : host.Mimics image profile worlds children exact)
include hmimics

theorem sendLine_mimics (h : session.Like children other) (line : Text) :
    (sendLine host name profile session line).Mimics worlds exact
      (sendLine image name profile other line) (Agree (Like children)) := by
  refine (Task.Mimics.await fun w v hw ↦ hmimics.send w v _ _ line hw h.child).bind ?_
  rintro _ _ (hreaction | _ | reason)
  · exact .pure (.ok (h.absorb hreaction))
  · exact .pure (.error _)
  · exact .pure (.error _)

theorem sendCommand_mimics (h : session.Like children other) (command : Text) :
    (sendCommand host name profile session command).Mimics worlds exact
      (sendCommand image name profile other command) (Agree (Like children)) := by
  unfold sendCommand
  split
  · exact .pure (.ok h)
  · exact sendLine_mimics hmimics h command

theorem synchronize_mimics (h : session.Like children other) :
    (synchronize host name profile session).Mimics worlds exact
      (synchronize image name profile other)
      fun (result, next) (result', next') ↦ result = result' ∧ next.Like children next' := by
  refine (sendLine_mimics hmimics h profile.echoCommand).bind ?_
  rintro _ _ (hnext | e)
  · exact readAnswer_mimics hnext
  · exact .pure ⟨rfl, h⟩

/-- A deadline that one clock can show, an earlier one can show, too. -/
theorem checkDeadline_mimics (seconds : Nat) :
    (checkDeadline host seconds).Mimics worlds exact (checkDeadline image seconds)
      fun _ _ ↦ True := by
  have hworld : (Task.world : Task ω ω).Mimics worlds exact (Task.world : Task ω' ω') worlds :=
    fun scene other hlike ↦ ⟨_, other, rfl, hlike.world, hlike⟩
  refine hworld.bind fun w v hw ↦ ?_
  have hle := hmimics.clock_le w v hw
  by_cases hlate : lastSecond < host.clock w + seconds
  · rw [if_pos hlate]
    rintro scene other hlike (hexact | hreason)
    · have := hmimics.clock_ge hexact w v hw
      rw [if_pos (by omega)]
      exact ⟨other, rfl, hlike⟩
    · exact absurd rfl hreason
  · rw [if_neg hlate, if_neg (by omega)]
    exact .pure trivial

theorem checkAnswer_mimics :
    (profile.timeoutSecs.forM (checkDeadline host)).Mimics worlds exact
      (profile.timeoutSecs.forM (checkDeadline image)) fun _ _ ↦ True := by
  cases profile.timeoutSecs with
  | none => exact .pure trivial
  | some seconds => exact checkDeadline_mimics hmimics seconds

theorem close_mimics (h : session.Like children other) (grace : Nat) :
    (close host name grace session).Mimics worlds exact (close image name grace other)
      fun _ _ ↦ True := by
  have hfinish : (Task.await .endlessEnd fun w ↦ host.finish w session.child grace).Mimics worlds
      exact (Task.await .endlessEnd fun v ↦ image.finish v other.child grace)
      fun ending ending' ↦ exact → ending = ending' :=
    .await fun w v hw ↦ hmimics.finish w v _ _ grace hw h.child
  refine (checkDeadline_mimics hmimics grace).bind fun _ _ _ ↦
    hfinish.bind fun ending ending' hending ↦ ?_
  by_cases hexact : exact
  · obtain rfl := hending hexact
    cases ending with
    | exited => exact .pure trivial
    | killed => exact .emit _
    | lost reason => exact .emit _
  · refine .emits hexact (fun scene ↦ ?_) fun scene ↦ ?_
    · cases ending <;> exact ⟨_, rfl⟩
    · cases ending' <;> exact ⟨_, rfl⟩

theorem discard_mimics {child : σ} {child' : τ} (h : children child child') (reason : Text) :
    (discard host name reason child).Mimics worlds exact (discard image name reason child')
      (Agree (Like children)) := by
  refine (Task.Mimics.await fun w v hw ↦ ?_).bind fun _ _ (_ : True) ↦ .pure (.error _)
  obtain ⟨hkill, hworlds⟩ := hmimics.kill w v _ _ hw h
  rw [hkill]
  cases (image.kill v child').1 with
  | none => exact ⟨.none, hworlds⟩
  | some => exact ⟨.some trivial, hworlds⟩

theorem start_mimics :
    (Session.start host name profile).Mimics worlds exact (Session.start image name profile)
      (Agree (Like children)) := by
  refine (Task.Mimics.act fun w v hw ↦ hmimics.start w v hw).bind ?_
  rintro _ _ (reason | hchild | @⟨child, child', hchild, reason⟩ |
    @⟨reaction, reaction', hreaction⟩)
  · exact .pure (.error _)
  · exact discard_mimics hmimics hchild _
  · exact checkName_mimics.bind fun _ _ _ ↦ discard_mimics hmimics hchild reason
  · refine checkName_mimics.bind fun _ _ _ ↦ (checkAnswer_mimics hmimics).bind fun _ _ _ ↦ ?_
    have hfirst : Like children { child := reaction.child } { child := reaction'.child } :=
      ⟨hreaction.child, rfl, rfl, rfl⟩
    refine (synchronize_mimics hmimics (hfirst.absorb hreaction)).bind ?_
    rintro ⟨result, session⟩ ⟨_, other⟩ ⟨rfl, hsession⟩
    cases result with
    | ok answer => exact .pure (.ok hsession)
    | error e => exact (close_mimics hmimics hsession 0).bind fun _ _ _ ↦ .pure (.error e)

theorem request_mimics (h : session.Like children other) (command : Text) :
    (request host name profile command session).Mimics worlds exact
      (request image name profile command other)
      fun (result, next) (result', next') ↦ result = result' ∧ next.Like children next' := by
  refine (checkAnswer_mimics hmimics).bind fun _ _ _ ↦
    (sendCommand_mimics hmimics h command).bind ?_
  rintro _ _ (hnext | e)
  · refine (synchronize_mimics hmimics hnext).bind ?_
    rintro ⟨result, last⟩ ⟨_, last'⟩ ⟨rfl, hlast⟩
    cases result <;> exact .pure ⟨rfl, hlast⟩
  · exact .pure ⟨rfl, h⟩

end Mimics

end Session

/-! ### Interpreters that stand for each other -/

namespace Interpreter

/-- The same interpreter with children that stand for each other. -/
structure Like (children : σ → τ → Prop) (interpreter : Interpreter σ) (other : Interpreter τ) :
    Prop where
  name : interpreter.name = other.name
  profile : interpreter.profile = other.profile
  session : Option.Rel (Session.Like children) interpreter.session other.session
  spawnCount : interpreter.spawnCount = other.spawnCount

variable {host : Host ω σ} {image : Host ω' τ} {worlds : ω → ω' → Prop}
  {children : σ → τ → Prop} {exact : Prop} {interpreter : Interpreter σ} {other : Interpreter τ}

theorem Like.isReady (h : interpreter.Like children other) :
    interpreter.isReady = other.isReady := by
  have hsession := h.session
  unfold Interpreter.isReady
  generalize interpreter.session = session at hsession ⊢
  generalize other.session = session' at hsession ⊢
  cases hsession <;> rfl

variable (hmimics : host.Mimics image interpreter.profile worlds children exact)
include hmimics

variable (interpreter) in
theorem stop_mimics (h : interpreter.Like children other) :
    (interpreter.stop host).Mimics worlds exact (other.stop image)
      fun next next' ↦ next.Like children next' ∧ next.profile = interpreter.profile := by
  obtain ⟨name, profile, session, count⟩ := interpreter
  obtain ⟨name', profile', session', count'⟩ := other
  obtain ⟨rfl, rfl, hsession, rfl⟩ := h
  cases hsession with
  | none => exact .pure ⟨⟨rfl, rfl, .none, rfl⟩, rfl⟩
  | some hsession =>
    exact (Session.close_mimics hmimics hsession profile.shutdownTimeoutSecs).bind
      fun _ _ _ ↦ .pure ⟨⟨rfl, rfl, .none, rfl⟩, rfl⟩

theorem ensureSession_mimics (h : interpreter.Like children other) :
    (interpreter.ensureSession host).Mimics worlds exact (other.ensureSession image)
      fun (result, next) (result', next') ↦ Agree (Session.Like children) result result' ∧
        next.Like children next' ∧ next.profile = interpreter.profile := by
  obtain ⟨name, profile, session, count⟩ := interpreter
  obtain ⟨name', profile', session', count'⟩ := other
  obtain ⟨rfl, rfl, hsession, rfl⟩ := h
  cases hsession with
  | some hsession => exact .pure ⟨.ok hsession, ⟨rfl, rfl, .some hsession, rfl⟩, rfl⟩
  | none =>
    refine (Task.Mimics.emit _).bind fun _ _ _ ↦ (Session.start_mimics hmimics).bind ?_
    rintro _ _ (hsession | e)
    · exact (Task.Mimics.emit _).bind fun _ _ _ ↦
        .pure ⟨.ok hsession, ⟨rfl, rfl, .some hsession, rfl⟩, rfl⟩
    · exact .pure ⟨.error e, ⟨rfl, rfl, .none, rfl⟩, rfl⟩

/-- **Simulation.** Interpreters that stand for each other do the same with a block. -/
theorem execute_mimics (h : interpreter.Like children other) (body dir : Text) :
    (interpreter.execute host body dir).Mimics worlds exact (other.execute image body dir)
      fun (result, next) (result', next') ↦ result = result' ∧ next.Like children next' ∧
        next.profile = interpreter.profile := by
  have hcommand :
      interpreter.profile.commandLine dir body = other.profile.commandLine dir body := by
    rw [h.profile]
  unfold execute
  rw [← hcommand]
  refine (ensureSession_mimics hmimics h).bind ?_
  rintro ⟨_, ⟨name, profile, running, count⟩⟩ ⟨_, ⟨name', profile', running', count'⟩⟩
    ⟨hsession, ⟨rfl, rfl, hrunning, rfl⟩, hprofile⟩
  obtain rfl : profile = interpreter.profile := hprofile
  rcases hsession with hsession | e
  · refine (Session.request_mimics hmimics hsession _).bind ?_
    rintro ⟨result, last⟩ ⟨_, last'⟩ ⟨rfl, hlast⟩
    cases result with
    | ok answer => exact .pure ⟨rfl, ⟨rfl, rfl, .some hlast, rfl⟩, rfl⟩
    | error e =>
      refine (Task.Mimics.emit _).bind fun _ _ _ ↦ ?_
      refine (stop_mimics ⟨name, _, some last, count⟩ hmimics ⟨rfl, rfl, .some hlast, rfl⟩).bind
        fun stopped stopped' hstopped ↦ ?_
      exact .pure ⟨rfl, hstopped⟩
  · exact .pure ⟨rfl, ⟨rfl, rfl, hrunning, rfl⟩, rfl⟩

end Interpreter

end Weave
