import Weave.Proofs.Pairing
import Weave.Proofs.WrittenSegments

/-!
# Outputs that do not end their last line

What a block prints need not end with a line feed. The marker then stands on the last line of the
output, and the whole of this line ends the answer. So the answer is the output, but for the line
breaks at its end, exactly if the output is empty or ends its last line.

## Main definitions

* `Weave.Session.AtRest`: a session in which nothing waits to be taken.
* `Weave.Host.Prints`, `Weave.Host.Replies`: what a child prints in reply to a line and to a block.

## Main results

* `Weave.Interpreter.execute_eq_iff`: the answer to a block, read off what its child prints.
* `Weave.Interpreter.execute_output_iff`: when the answer is the output of the block.
* `Weave.Greeter.execute_unended`: an output that is lost.
-/

namespace Weave

/-! ### Lines of an output -/

namespace Text

/-- A needle has no character more often than a text in which it occurs. -/
theorem count_le_of_holds {needle t : Text} (h : holds needle t = true) (c : Char) :
    needle.count c ≤ t.count c := by
  obtain ⟨⟨before, rest⟩, hbreak⟩ := Option.isSome_iff_exists.mp h
  rw [eq_append_of_breakOn? hbreak, List.count_append, List.count_append]
  omega

/-- Every text consists of lines that end with a line feed and the start of a line. -/
theorem exists_lines (t : Text) : ∃ (ls : List Text) (rest : Text),
    t = ls.flatMap (· ++ ['\n']) ++ rest ∧ (∀ line ∈ ls, '\n' ∉ line) ∧ '\n' ∉ rest := by
  induction t with
  | nil => exact ⟨[], [], rfl, by simp, by simp⟩
  | cons c cs ih =>
    obtain ⟨ls, rest, rfl, hls, hrest⟩ := ih
    by_cases hc : c = '\n'
    · exact ⟨[] :: ls, rest, by simp [hc], by simpa using hls, hrest⟩
    · cases ls with
      | nil => exact ⟨[], c :: rest, rfl, by simp, by simp [Ne.symm hc, hrest]⟩
      | cons line ls =>
        obtain ⟨hline, hls⟩ := List.forall_mem_cons.mp hls
        have hcons : '\n' ∉ c :: line := by simp [Ne.symm hc, hline]
        exact ⟨(c :: line) :: ls, rest, rfl, List.forall_mem_cons.mpr ⟨hcons, hls⟩, hrest⟩

variable {ls : List Text} {rest : Text}

/-- A line is a part of the text that holds it. -/
theorem exists_append_of_mem {line : Text} (h : line ∈ ls) (rest : Text) :
    ∃ before after, ls.flatMap (· ++ ['\n']) ++ rest = before ++ line ++ after := by
  obtain ⟨first, last, rfl⟩ := List.append_of_mem h
  exact ⟨first.flatMap (· ++ ['\n']), '\n' :: (last.flatMap (· ++ ['\n']) ++ rest), by simp⟩

/-- A text ends its last line exactly if no line is started behind those that end. -/
theorem endsLine_flatMap_append_iff (h : '\n' ∉ rest) :
    endsLine (ls.flatMap (· ++ ['\n']) ++ rest) = true ↔ rest = [] := by
  constructor
  · intro hends
    by_contra hne
    obtain ⟨c, hc⟩ := Option.isSome_iff_exists.mp (List.getLast?_isSome.mpr hne)
    rw [endsLine_append hne, endsLine, hc] at hends
    have hfeed : c = '\n' := by simpa using hends
    exact h (hfeed ▸ List.mem_of_getLast? hc)
  · rintro rfl
    rw [List.append_nil]
    by_cases hls : ls = []
    · rw [hls]
      rfl
    · rw [flatMap_append_lineFeed hls]
      exact endsLine_append_lineFeed _

/-- Lines that end with a line feed and hold no other line break are the first lines of a text. -/
theorem lines_flatMap_append (h : ∀ line ∈ ls, '\n' ∉ line ∧ '\r' ∉ line) (rest : Text) :
    lines (ls.flatMap (· ++ ['\n']) ++ rest) = ls ++ lines rest := by
  induction ls with
  | nil => rfl
  | cons line ls ih =>
    obtain ⟨⟨hfeed, hreturn⟩, hls⟩ := List.forall_mem_cons.mp h
    rw [List.flatMap_cons, List.append_assoc, lines,
      brokenLines_append (endsLine_append_lineFeed _), brokenLines_append_lineFeed hfeed,
      List.map_append, List.map_singleton, withoutLineEnd_append_lineFeed hreturn, ← lines, ih hls]
    rfl

end Text

variable {ω σ : Type}

/-! ### What a session takes in -/

theorem Utf8.encode_append (s t : Text) : encode (s ++ t) = encode s ++ encode t :=
  List.flatMap_append

namespace Session

/-- Output that comes in two parts is taken as one. -/
theorem splitOutput_append (before first second : Bytes) :
    splitOutput before (first ++ second) =
      ((splitOutput before first).1 ++ (splitOutput (splitOutput before first).2.reverse second).1,
        (splitOutput (splitOutput before first).2.reverse second).2) := by
  induction first generalizing before with
  | nil => simp [splitOutput]
  | cons b bs ih =>
    rw [List.cons_append, splitOutput, splitOutput]
    split
    · rw [ih]
      rfl
    · exact ih (b :: before)

/-- What a child prints in two replies is taken in as if it were one reply. -/
theorem absorb_absorb (session : Session σ) (child next : σ) (first second : Bytes) (ended : Bool) :
    (session.absorb ⟨child, first, false⟩).absorb ⟨next, second, ended⟩ =
      session.absorb ⟨next, first ++ second, ended⟩ := by
  cases ended <;> simp [absorb, splitOutput_append]

/-- Output without a line feed continues the line that has been started. -/
theorem splitOutput_of_notMem (before : Bytes) {bytes : Bytes} (h : 10 ∉ bytes) :
    splitOutput before bytes = ([], before.reverse ++ bytes) := by
  induction bytes generalizing before with
  | nil => simp [splitOutput]
  | cons b bs ih =>
    obtain ⟨hb, hbs⟩ : 10 ≠ b ∧ 10 ∉ bs := by simpa using h
    rw [splitOutput, if_neg hb.symm, ih (b :: before) hbs, List.reverse_cons, List.append_assoc,
      List.singleton_append]

/-- The encoding of lines that end with a line feed is taken as these lines, without the carriage
returns at their ends, and the start of a line behind them waits for its end. -/
theorem splitOutput_encode {ls : List Text} {rest : Text} (hls : ∀ line ∈ ls, '\n' ∉ line)
    (hrest : '\n' ∉ rest) :
    splitOutput [] (Utf8.encode (ls.flatMap (· ++ ['\n']) ++ rest)) =
      (ls.map (Text.trimEndWhere Text.isLineBreak), Utf8.encode rest) := by
  induction ls with
  | nil => exact splitOutput_of_notMem [] (Utf8.lineFeed_notMem_encode hrest)
  | cons line ls ih =>
    obtain ⟨hline, hls⟩ := List.forall_mem_cons.mp hls
    have hencode : Utf8.encode ((line :: ls).flatMap (· ++ ['\n']) ++ rest) =
        Utf8.encode line ++ 10 :: Utf8.encode (ls.flatMap (· ++ ['\n']) ++ rest) := by
      have hfeed : String.utf8EncodeChar '\n' = [10] := by decide
      simp [Utf8.encode, hfeed]
    rw [hencode, splitOutput_line [] (Utf8.lineFeed_notMem_encode hline), ih hls, lineText,
      List.reverse_nil, List.nil_append, Utf8.decode_encode, List.map_cons]

/-- The lines that wait hold an answer, which is a given text but for the line breaks at its end. -/
def Answers (profile : Profile) (session : Session σ) (answer : Text) : Prop :=
  ∃ taken rest, collect? profile.readyMarker profile.prompt session.queue = some (taken, rest) ∧
    answer = Text.trimEndWhere Text.isLineBreak taken

end Session

/-! ### Replies to a block -/

/-- In reply to a line, the child prints a text, and goes on. -/
def Host.Prints (host : Host ω σ) (profile : Profile) (world : ω) (child : σ) (line printed : Text)
    (next : σ) (later : ω) : Prop :=
  host.send world child line profile.timeoutSecs =
    (some (.taken ⟨next, Utf8.encode printed, false⟩), later)

/-- In reply to the command of a block, the child prints a text, and goes on. An empty command is
not sent, and so nothing is printed. -/
inductive Host.Replies (host : Host ω σ) (profile : Profile) (world : ω) (child : σ) :
    (command printed : Text) → (next : σ) → (later : ω) → Prop
  | unsent : host.Replies profile world child [] [] child world
  | sent {command printed : Text} {next : σ} {later : ω} (hne : command ≠ [])
      (hprints : host.Prints profile world child command printed next later) :
      host.Replies profile world child command printed next later

section Request

variable {host : Host ω σ} {profile : Profile} {world between later : ω} {child next last : σ}
  {session : Session σ} {name command output printed line : Text} {w : ω}

namespace Session

/-- What is printed in reply to a line is taken in. -/
theorem Sends.eq_of_prints (h : host.Prints profile world session.child line printed next later)
    {result : Except Halt (Except Error (Session σ))}
    (hsends : Sends host name profile session line world result w) :
    result = .ok (.ok (session.absorb ⟨next, Utf8.encode printed, false⟩)) ∧ w = later := by
  cases hsends with
  | taken htaken => cases h.symm.trans htaken; exact ⟨rfl, rfl⟩
  | closed hclosed => cases h.symm.trans hclosed
  | failed hfailed => cases h.symm.trans hfailed
  | endless hendless => cases h.symm.trans hendless

/-- What is printed in reply to the command of a block is taken in. -/
theorem SendsCommand.eq_of_replies
    (h : host.Replies profile world session.child command printed next later)
    {result : Except Halt (Except Error (Session σ))}
    (hsends : SendsCommand host name profile session command world result w) :
    result = .ok (.ok (session.absorb ⟨next, Utf8.encode printed, false⟩)) ∧ w = later := by
  cases hsends with
  | unsent hnil =>
    cases h with
    | unsent => exact ⟨by simp [absorb, Utf8.encode, splitOutput], rfl⟩
    | sent hne _ => exact absurd hnil hne
  | sent hne hsends =>
    cases h with
    | unsent => exact absurd rfl hne
    | sent _ hprints => exact hsends.eq_of_prints hprints

/-- An answer is taken exactly if the marker is among the lines that wait. -/
theorem Reads.answers_iff {result : Except Halt (Except Error Text × Session σ)}
    (hreads : Reads name profile session result) (answer : Text) :
    (∃ last, result = .ok (.ok answer, last)) ↔
      ∃ rest, collect? profile.readyMarker profile.prompt session.queue = some (answer, rest) := by
  cases hreads with
  | answered hcollect => simp [hcollect]
  | exited hnone _ => simp [hnone]
  | late hnone _ _ => simp [hnone]
  | endless hnone _ _ => simp [hnone]

/-- An answer is taken exactly if the marker is among the lines that wait when the reply to the echo
command has been taken in. -/
theorem Synchronizes.answers_iff
    (h : host.Prints profile world session.child profile.echoCommand printed last later)
    {result : Except Halt (Except Error Text × Session σ)}
    (hsync : Synchronizes host name profile session world result w) (answer : Text) :
    (∃ after, result = .ok (.ok answer, after)) ↔ ∃ rest,
      collect? profile.readyMarker profile.prompt
        (session.absorb ⟨last, Utf8.encode printed, false⟩).queue = some (answer, rest) := by
  cases hsync with
  | unsent hsends => cases (hsends.eq_of_prints h).1
  | halted hsends => cases (hsends.eq_of_prints h).1
  | read hsends hreads =>
    cases (hsends.eq_of_prints h).1
    exact hreads.answers_iff answer

/-- A request is answered exactly if its deadline can be set and the marker is among the lines that
wait when both replies have been taken in. -/
theorem Requests.answers_iff
    (hreply : host.Replies profile world session.child command output next between)
    (hecho : host.Prints profile between next profile.echoCommand printed last later)
    {result : Except Halt (Except Error Text × Session σ)}
    (hrequests : Requests host name profile command session world result w) (answer : Text) :
    (∃ after, result = .ok (.ok answer, after)) ↔ host.ShowsDeadline world profile ∧
      (session.absorb ⟨last, Utf8.encode (output ++ printed), false⟩).Answers profile answer := by
  have habsorb := absorb_absorb session next last (Utf8.encode output) (Utf8.encode printed) false
  rw [← Utf8.encode_append] at habsorb
  rw [← habsorb]
  -- Both replies have been taken in when the answer is read.
  have hanswers {sent : Session σ} {mid : ω} {read : Except Halt (Except Error Text × Session σ)}
      (hsends : SendsCommand host name profile session command world (.ok (.ok sent)) mid)
      (hsync : Synchronizes host name profile sent mid read w) (taken : Text) :
      (∃ after, read = .ok (.ok taken, after)) ↔ ∃ rest,
        collect? profile.readyMarker profile.prompt
          ((session.absorb ⟨next, Utf8.encode output, false⟩).absorb
            ⟨last, Utf8.encode printed, false⟩).queue = some (taken, rest) := by
    obtain ⟨⟨rfl⟩, rfl⟩ := hsends.eq_of_replies hreply
    have hprints : host.Prints profile mid
        (session.absorb ⟨next, Utf8.encode output, false⟩).child profile.echoCommand printed last
        later := by rwa [absorb_child]
    exact hsync.answers_iff hprints taken
  cases hrequests with
  | late hlate => simp [hlate]
  | unsent _ hsends => cases (hsends.eq_of_replies hreply).1
  | untaken _ hsends => cases (hsends.eq_of_replies hreply).1
  | @answered _ _ _ _ taken hshows hsends hsync =>
    obtain ⟨rest, hsome⟩ := (hanswers hsends hsync taken).mp ⟨_, rfl⟩
    simp [hshows, Answers, hsome, eq_comm]
  | failed _ hsends hsync =>
    refine ⟨by simp, ?_⟩
    rintro ⟨-, taken, rest, hsome, -⟩
    obtain ⟨after, hafter⟩ := (hanswers hsends hsync taken).mpr ⟨rest, hsome⟩
    cases hafter
  | halted _ hsends hsync =>
    refine ⟨by simp, ?_⟩
    rintro ⟨-, taken, rest, hsome, -⟩
    obtain ⟨after, hafter⟩ := (hanswers hsends hsync taken).mpr ⟨rest, hsome⟩
    cases hafter

end Session

namespace Interpreter

variable {interpreter : Interpreter σ} {body dir : Text} {scene : Scene ω}

/-- A block is answered if its request is, in a running session. -/
theorem Executes.answered_iff (hsession : interpreter.session = some session)
    {result : Except Halt (Except Error Text × Interpreter σ)}
    (h : Executes host interpreter body dir world result w) :
    ∃ request later, session.Requests host interpreter.name interpreter.profile
        (interpreter.profile.commandLine dir body) world request later ∧
      ∀ answer, (∃ next, result = .ok (.ok answer, next)) ↔
        ∃ last, request = .ok (.ok answer, last) := by
  -- No session is started, as one is running.
  have hrunning {ready : Except Error (Session σ)} {next : Interpreter σ} {mid : ω}
      (hreadies : Readies host interpreter world (.ok (ready, next)) mid) :
      ready = .ok session ∧ next = interpreter ∧ mid = world := by
    cases hreadies with
    | running h => cases hsession.symm.trans h; exact ⟨rfl, rfl, rfl⟩
    | started hnone _ => cases hsession.symm.trans hnone
    | failed hnone _ => cases hsession.symm.trans hnone
  cases h with
  | unready hreadies => cases (hrunning hreadies).1
  | unstarted hreadies =>
    cases hreadies with
    | halted hnone _ => cases hsession.symm.trans hnone
  | answered hreadies hrequests =>
    obtain ⟨⟨rfl⟩, rfl, rfl⟩ := hrunning hreadies
    exact ⟨_, _, hrequests, by simp⟩
  | halted hreadies hrequests =>
    obtain ⟨⟨rfl⟩, rfl, rfl⟩ := hrunning hreadies
    exact ⟨_, _, hrequests, by simp⟩
  | failed hreadies hrequests _ =>
    obtain ⟨⟨rfl⟩, rfl, rfl⟩ := hrunning hreadies
    exact ⟨_, _, hrequests, by simp⟩
  | unstopped hreadies hrequests _ =>
    obtain ⟨⟨rfl⟩, rfl, rfl⟩ := hrunning hreadies
    exact ⟨_, _, hrequests, by simp⟩

/-- The answer to a block, read off what the child of a running session prints. -/
theorem execute_eq_iff (hsession : interpreter.session = some session)
    (hreply : host.Replies interpreter.profile scene.world session.child
      (interpreter.profile.commandLine dir body) output next between)
    (hecho : host.Prints interpreter.profile between next interpreter.profile.echoCommand printed
      last later)
    (answer : Text) :
    (∃ after final, (interpreter.execute host body dir).outcome scene =
      (.ok (.ok answer, after), final)) ↔
      host.ShowsDeadline scene.world interpreter.profile ∧
        (session.absorb ⟨last, Utf8.encode (output ++ printed), false⟩).Answers
          interpreter.profile answer := by
  rcases hrun : (interpreter.execute host body dir).outcome scene with ⟨result, final⟩
  obtain ⟨request, w, hrequests, hanswered⟩ :=
    ((interpreter.execute_exits host body dir).of_outcome hrun).answered_iff hsession
  rw [← hrequests.answers_iff hreply hecho, ← hanswered]
  simp

end Interpreter

end Request

/-! ### Outputs and answers -/

namespace Session

variable {session : Session σ} {profile : Profile} {ls : List Text} {output rest : Text}

/-- A marker that holds a line feed ends no answer. -/
theorem Tidy.not_answers (h : session.Tidy) (hfeed : '\n' ∈ profile.readyMarker) (answer : Text) :
    ¬session.Answers profile answer := by
  rintro ⟨taken, rest, hsome, -⟩
  obtain ⟨before, line, hqueue, -, hline, -⟩ := collect?_eq_some_iff.mp hsome
  exact h.queue line (by simp [hqueue]) (Text.mem_of_holds hline hfeed)

/-- Nothing waits to be taken, and the child goes on. -/
structure AtRest (session : Session σ) : Prop where
  queue : session.queue = []
  unfinished : session.unfinished = []
  ended : session.ended = false

theorem AtRest.tidy (h : session.AtRest) : session.Tidy :=
  ⟨by simp [h.queue], by simp [h.unfinished]⟩

/-- The lines that wait when a session that was at rest has taken in some lines. -/
theorem AtRest.queue_absorb (h : session.AtRest) (hls : ∀ line ∈ ls, '\n' ∉ line) (child : σ) :
    (session.absorb ⟨child, Utf8.encode (ls.flatMap (· ++ ['\n'])), false⟩).queue =
      ls.map (Text.trimEndWhere Text.isLineBreak) := by
  have hsplit := splitOutput_encode hls (List.not_mem_nil (a := '\n'))
  rw [List.append_nil] at hsplit
  simp [absorb, h.queue, h.unfinished, hsplit]

/-- The marker is not found behind a text without carriage returns if its own last character is
one. -/
theorem holds_trimEndWhere_eq_false {marker : Text} (hlast : marker.getLast? = some '\r')
    (hrest : '\r' ∉ rest) :
    Text.holds marker (Text.trimEndWhere Text.isLineBreak (rest ++ marker)) = false := by
  obtain ⟨front, rfl⟩ : ∃ front, marker = front ++ ['\r'] := List.getLast?_eq_some_iff.mp hlast
  obtain ⟨tail, htail, -⟩ := Text.exists_trimEndWhere_append Text.isLineBreak (rest ++ front)
  rw [← List.append_assoc, Text.trimEndWhere_append_of_pos (by decide)]
  refine Bool.eq_false_iff.mpr fun hholds ↦ ?_
  have hcount := Text.count_le_of_holds hholds '\r'
  have hfront := congrArg (List.count '\r') htail
  have hzero := List.count_eq_zero.mpr hrest
  simp only [List.count_append, List.count_singleton_self] at hcount hfront
  omega

/-- The lines of an output are the answer that they make, but for the line breaks at its end,
exactly if no line is started behind them. -/
theorem shown_eq_output_iff {prompt : Text}
    (hls : ∀ line ∈ ls, Prompt.strip? prompt line = some line)
    (hrest : '\n' ∉ rest ∧ '\r' ∉ rest) :
    Text.trimEndWhere Text.isLineBreak (ls.flatMap (· ++ ['\n']) ++ rest) =
      Text.trimEndWhere Text.isLineBreak (shown prompt ls) ↔ rest = [] := by
  have hkept : ls.filterMap (Prompt.strip? prompt) = ls := by
    rw [List.filterMap_congr hls, List.filterMap_some]
  rw [shown, hkept]
  generalize ls.flatMap (· ++ ['\n']) = front
  constructor
  · intro heq
    by_contra hne
    -- The line that has been started ends the output, so nothing is removed there.
    have hlast : ∀ c, (front ++ rest).getLast? = some c →
        Text.isLineBreak c = false := fun c hc ↦ by
      obtain ⟨d, hd⟩ := Option.isSome_iff_exists.mp (List.getLast?_isSome.mpr hne)
      rw [List.getLast?_append, hd, Option.some_or] at hc
      have hmem : c ∈ rest := List.mem_of_getLast? (hd.trans hc)
      have hfeed : c ≠ '\n' := fun h ↦ hrest.1 (h ▸ hmem)
      have hreturn : c ≠ '\r' := fun h ↦ hrest.2 (h ▸ hmem)
      simp [Text.isLineBreak, hfeed, hreturn]
    have hlength := congrArg List.length heq
    have hle := Text.length_trimEndWhere_le Text.isLineBreak front
    have hpos := List.length_pos_of_ne_nil hne
    rw [Text.trimEndWhere_eq_self_of_getLast? hlast, List.length_append] at hlength
    omega
  · rintro rfl
    rw [List.append_nil]

/-- An output without carriage returns and without the marker, all of whose lines are left as they
are, is the answer, but for the line breaks at its end, exactly if it ends its last line, and the
marker is found at the end of a line. -/
theorem AtRest.answers_iff (h : session.AtRest) (hreturn : '\r' ∉ output)
    (hmarker : Text.holds profile.readyMarker output = false)
    (hlines : ∀ line ∈ Text.lines output, Prompt.strip? profile.prompt line = some line)
    (child : σ) :
    (session.absorb ⟨child, Utf8.encode (output ++ (profile.readyMarker ++ ['\n'])), false⟩).Answers
        profile (Text.trimEndWhere Text.isLineBreak output) ↔
      Text.endsLine output = true ∧ '\n' ∉ profile.readyMarker ∧
        profile.readyMarker.getLast? ≠ some '\r' := by
  obtain ⟨ls, rest, rfl, hls, hrest⟩ := Text.exists_lines output
  by_cases hfeed : '\n' ∈ profile.readyMarker
  · have hnot := (h.tidy.absorb ⟨child, Utf8.encode (ls.flatMap (· ++ ['\n']) ++ rest ++
      (profile.readyMarker ++ ['\n'])), false⟩).not_answers hfeed
    exact ⟨fun hanswers ↦ absurd hanswers (hnot _), fun hall ↦ absurd hfeed hall.2.1⟩
  -- The lines of the output hold neither line breaks nor the marker.
  have hplain : ∀ line ∈ ls, '\n' ∉ line ∧ '\r' ∉ line := fun line hline ↦ by
    obtain ⟨before, after, heq⟩ := Text.exists_append_of_mem hline rest
    exact ⟨hls line hline, fun hmem ↦ hreturn (by simp [heq, hmem])⟩
  have hunmarked : Unmarked profile.readyMarker ls := fun line hline ↦ by
    obtain ⟨before, after, heq⟩ := Text.exists_append_of_mem hline rest
    rw [heq] at hmarker
    exact Bool.eq_false_iff.mpr fun hholds ↦
      Bool.eq_false_iff.mp hmarker (Text.holds_of_part hholds before after)
  have hrestreturn : '\r' ∉ rest := fun hmem ↦ hreturn (List.mem_append_right _ hmem)
  -- The line behind them has been started by the output and is ended by the marker.
  have hmore : ∀ line ∈ ls ++ [rest ++ profile.readyMarker], '\n' ∉ line := by
    simpa [hrest, hfeed, or_imp, forall_and] using hls
  have hself : ls.map (Text.trimEndWhere Text.isLineBreak) = ls :=
    (List.map_congr_left fun line hline ↦ Text.trimEndWhere_isLineBreak_eq_self (hls line hline)
      fun hend ↦ (hplain line hline).2 (List.mem_of_getLast? hend)).trans (List.map_id ls)
  have hqueue := h.queue_absorb hmore child
  rw [List.map_append, hself, List.flatMap_append, List.flatMap_singleton, List.append_assoc rest,
    ← List.append_assoc, List.map_singleton] at hqueue
  rw [Answers, hqueue, Text.endsLine_flatMap_append_iff hrest]
  by_cases hlast : profile.readyMarker.getLast? = some '\r'
  · have hnone : collect? profile.readyMarker profile.prompt (ls ++
        [Text.trimEndWhere Text.isLineBreak (rest ++ profile.readyMarker)]) = none := by
      refine collect?_eq_none_iff.mpr fun line hline ↦ ?_
      rcases List.mem_append.mp hline with hline | hline
      · exact hunmarked line hline
      · rw [List.mem_singleton.mp hline]
        exact holds_trimEndWhere_eq_false hlast hrestreturn
    simp [hnone, hlast]
  · have hne : profile.readyMarker ≠ [] := fun hnil ↦ by
      rw [hnil] at hmarker
      exact Bool.eq_false_iff.mp hmarker (Text.holds_append [] _)
    have hkept : Text.trimEndWhere Text.isLineBreak (rest ++ profile.readyMarker) =
        rest ++ profile.readyMarker := by
      obtain ⟨c, hc⟩ := Option.isSome_iff_exists.mp (List.getLast?_isSome.mpr hne)
      refine Text.trimEndWhere_isLineBreak_eq_self (by simp [hrest, hfeed]) ?_
      rwa [List.getLast?_append, hc, Option.some_or, ← hc]
    have hholds : Text.holds profile.readyMarker (rest ++ profile.readyMarker) = true := by
      simpa using Text.holds_middle rest profile.readyMarker []
    have hshown : ∀ line ∈ ls, Prompt.strip? profile.prompt line = some line := fun line hline ↦
      hlines line (by simp [Text.lines_flatMap_append hplain, hline])
    rw [hkept, collect?_append hunmarked hholds, ← shown_eq_output_iff hshown ⟨hrest, hrestreturn⟩]
    simp [hfeed, hlast]

end Session

/-- **Outputs that do not end their last line.** In a session at rest, the child prints an output in
reply to a block and the marker in reply to the echo command. The output holds no carriage return
and no marker, and none of its lines has a prompt to remove. Then the block is answered with the
output, but for the line breaks at its end, exactly if the output is empty or ends its last line,
the marker can be found at the end of a line, and the clock can show the deadline of the answer. -/
theorem Interpreter.execute_output_iff {host : Host ω σ} {interpreter : Interpreter σ}
    {session : Session σ} {body dir output : Text} {scene : Scene ω} {between later : ω}
    {next last : σ} (hsession : interpreter.session = some session) (hrest : session.AtRest)
    (hreply : host.Replies interpreter.profile scene.world session.child
      (interpreter.profile.commandLine dir body) output next between)
    (hecho : host.Prints interpreter.profile between next interpreter.profile.echoCommand
      (interpreter.profile.readyMarker ++ ['\n']) last later)
    (hreturn : '\r' ∉ output)
    (hmarker : Text.holds interpreter.profile.readyMarker output = false)
    (hlines : ∀ line ∈ Text.lines output,
      Prompt.strip? interpreter.profile.prompt line = some line) :
    (∃ after final, (interpreter.execute host body dir).outcome scene =
      (.ok (.ok (Text.trimEndWhere Text.isLineBreak output), after), final)) ↔
      Text.endsLine output = true ∧
        ('\n' ∉ interpreter.profile.readyMarker ∧
          interpreter.profile.readyMarker.getLast? ≠ some '\r') ∧
        host.ShowsDeadline scene.world interpreter.profile := by
  rw [execute_eq_iff hsession hreply hecho, hrest.answers_iff hreturn hmarker hlines, and_comm,
    and_assoc]

namespace Greeter

/-- What is printed in reply to a line: the marker if it is the echo command, and some output
otherwise. -/
def printed (output line : Text) : Text :=
  if line = "echo '#########'".toList then "#########\n".toList else output

/-- The host whose children print that. -/
def printer (output : Text) : Host Unit Unit := .saying (printed output)

/-- A shell that is ready. -/
def ready : Interpreter Unit :=
  { name := "repl".toList, profile, session := some { child := () } }

/-- What a child prints in reply to a block and to the echo command. -/
theorem printer_prints (output : Text) :
    (printer output).Replies ready.profile () ()
        (ready.profile.commandLine "/d".toList "printf hello".toList) output () () ∧
      (printer output).Prints ready.profile () () ready.profile.echoCommand
        (ready.profile.readyMarker ++ ['\n']) () () := by
  have hcommand : ready.profile.commandLine "/d".toList "printf hello".toList =
      "printf hello".toList := by decide +kernel
  have hprinted : printed output "printf hello".toList = output := if_neg (by decide)
  refine ⟨?_, ?_⟩
  · rw [hcommand]
    refine .sent (by decide) ?_
    rw [Host.Prints, printer, Host.saying]
    dsimp only
    rw [hprinted]
  · rw [ready, echoCommand_profile]
    rfl

/-- A line that is ended is the answer. -/
theorem execute_ended : ∃ after final,
    (ready.execute (printer "hello\n".toList) "printf hello".toList "/d".toList).outcome
      { world := () } = (.ok (.ok "hello".toList, after), final) := by
  obtain ⟨hreply, hecho⟩ := printer_prints "hello\n".toList
  have hsession : ready.session = some { child := () } := rfl
  have htrim : Text.trimEndWhere Text.isLineBreak "hello\n".toList = "hello".toList := by decide
  rw [← htrim]
  exact (Interpreter.execute_output_iff hsession ⟨rfl, rfl, rfl⟩ hreply hecho (by decide)
    (by decide +kernel) (by decide +kernel)).mpr ⟨by decide, by decide, nofun⟩

/-- A line that is not ended is lost. -/
theorem execute_unended :
    ('\r' ∉ "hello".toList ∧ Text.holds ready.profile.readyMarker "hello".toList = false ∧
      ∀ line ∈ Text.lines "hello".toList, Prompt.strip? ready.profile.prompt line = some line) ∧
    ((printer "hello".toList).Replies ready.profile () ()
        (ready.profile.commandLine "/d".toList "printf hello".toList) "hello".toList () () ∧
      (printer "hello".toList).Prints ready.profile () () ready.profile.echoCommand
        (ready.profile.readyMarker ++ ['\n']) () ()) ∧
    ∃ after final, (ready.execute (printer "hello".toList) "printf hello".toList
      "/d".toList).outcome { world := () } = (.ok (.ok [], after), final) := by
  obtain ⟨hreply, hecho⟩ := printer_prints "hello".toList
  have hsession : ready.session = some { child := () } := rfl
  have hanswers : Session.Answers ready.profile (Session.absorb { child := () }
      ⟨(), Utf8.encode ("hello".toList ++ (ready.profile.readyMarker ++ ['\n'])), false⟩) [] :=
    ⟨[], [], by decide +kernel, rfl⟩
  exact ⟨⟨by decide, by decide +kernel, by decide +kernel⟩, ⟨hreply, hecho⟩,
    (Interpreter.execute_eq_iff hsession hreply hecho []).mpr ⟨nofun, hanswers⟩⟩

end Greeter

end Weave
