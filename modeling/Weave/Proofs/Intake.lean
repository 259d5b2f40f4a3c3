import Weave.Proofs.Ensures
import Weave.Proofs.Printed

/-!
# What is taken from lines

A line is in one way only some copies of the prompt with a rest behind them that does not start with
the prompt. The rest is the text of the line, unless the line held prompts only, the last of which
may lack the blanks at its end. From a queue that nothing is added to any more, one answer is taken:
the texts of the lines before the first one that holds the marker. That line and those before it are
gone then, and the others wait for the next answer.

## Main definitions

* `Weave.Prompt.Prompted`: the prompts at the start of a line and what stands behind them.
* `Weave.Prompt.IsBare`: nothing stands behind them but what may belong to a prompt.

## Main results

* `Weave.Prompt.strip?_prompted`: the text of a line, which has no more prompts to take away.
* `Weave.Session.readAnswer_consumes`: an answer, and what is left in the queue when it is taken.
-/

namespace Weave

/-! ### Prompts -/

namespace Prompt

variable {prompt line rest : Text} {count : Nat}

/-- A line is made of some copies of the prompt and a rest that does not start with the prompt. -/
structure Prompted (prompt : Text) (count : Nat) (rest line : Text) : Prop where
  line_eq : line = (List.replicate count prompt).flatten ++ rest
  not_prefix : ¬prompt <+: rest

theorem prompted_zero_iff : Prompted prompt 0 rest line ↔ line = rest ∧ ¬prompt <+: rest :=
  ⟨fun h ↦ ⟨h.line_eq, h.not_prefix⟩, fun h ↦ ⟨h.1, h.2⟩⟩

/-- The first prompt of a line is followed by a line with one prompt less. -/
theorem prompted_succ_iff : Prompted prompt (count + 1) rest line ↔
    ∃ back, line = prompt ++ back ∧ Prompted prompt count rest back := by
  constructor
  · rintro ⟨rfl, hrest⟩
    refine ⟨_, ?_, rfl, hrest⟩
    rw [List.replicate_succ, List.flatten_cons, List.append_assoc]
  · rintro ⟨back, rfl, rfl, hrest⟩
    refine ⟨?_, hrest⟩
    rw [List.replicate_succ, List.flatten_cons, List.append_assoc]

/-- Only a prompt that is not empty can be missing at the start of a rest. -/
theorem Prompted.ne_nil (h : Prompted prompt count rest line) : prompt ≠ [] := by
  rintro rfl
  exact h.not_prefix List.nil_prefix

theorem exists_prompted (hprompt : prompt ≠ []) (line : Text) :
    ∃ count rest, Prompted prompt count rest line := by
  by_cases hstart : prompt <+: line
  · obtain ⟨back, rfl⟩ := hstart
    obtain ⟨count, rest, hback⟩ := exists_prompted hprompt back
    exact ⟨count + 1, rest, prompted_succ_iff.mpr ⟨back, rfl, hback⟩⟩
  · exact ⟨0, line, prompted_zero_iff.mpr ⟨rfl, hstart⟩⟩
termination_by line.length
decreasing_by
  have := List.length_pos_iff.mpr hprompt
  subst_vars
  simp only [List.length_append]
  omega

theorem afterPrompts_of_not_prefix (h : ¬prompt <+: line) : afterPrompts prompt line = line := by
  rw [afterPrompts]
  split
  · rfl
  · rename_i back hback
    exact absurd ⟨back, (Text.after?_eq_some_iff.mp hback).symm⟩ h

theorem afterPrompts_append (hprompt : prompt ≠ []) (back : Text) :
    afterPrompts prompt (prompt ++ back) = afterPrompts prompt back := by
  have hafter : Text.after? prompt (prompt ++ back) = some back := Text.after?_eq_some_iff.mpr rfl
  rw [afterPrompts]
  split
  · rename_i hnone
    cases hafter.symm.trans hnone
  · rename_i rest hrest
    cases hafter.symm.trans hrest
    rw [if_neg hprompt]

/-- What is left of a line is the rest behind its prompts. -/
theorem Prompted.afterPrompts_eq (h : Prompted prompt count rest line) :
    afterPrompts prompt line = rest := by
  induction count generalizing line with
  | zero =>
    obtain ⟨rfl, hstart⟩ := prompted_zero_iff.mp h
    exact afterPrompts_of_not_prefix hstart
  | succ count ih =>
    have hprompt := h.ne_nil
    obtain ⟨back, rfl, hback⟩ := prompted_succ_iff.mp h
    rw [afterPrompts_append hprompt, ih hback]

theorem Prompted.length_eq (h : Prompted prompt count rest line) :
    line.length = count * prompt.length + rest.length := by
  rw [h.line_eq, List.length_append, List.length_flatten, List.map_replicate,
    List.sum_replicate_nat]

/-- Something has been taken away exactly if there was a prompt. -/
theorem Prompted.length_lt_iff (h : Prompted prompt count rest line) :
    rest.length < line.length ↔ 1 ≤ count := by
  have hpos := List.length_pos_iff.mpr h.ne_nil
  rw [h.length_eq, Nat.lt_add_left_iff_pos, Nat.mul_pos_iff_of_pos_right hpos]
  exact Nat.succ_le_iff.symm

/-- A line has its prompts in one way only. -/
theorem Prompted.unique {count' : Nat} {rest' : Text} (h : Prompted prompt count rest line)
    (h' : Prompted prompt count' rest' line) : count' = count ∧ rest' = rest := by
  obtain rfl : rest' = rest := h'.afterPrompts_eq.symm.trans h.afterPrompts_eq
  have hlength := h'.length_eq.symm.trans h.length_eq
  exact ⟨Nat.eq_of_mul_eq_mul_right (List.length_pos_iff.mpr h.ne_nil) (by omega), rfl⟩

/-- Behind the prompts of a line stands a prompt once more, with other blanks at its end or none, or
there are only blanks behind at least one prompt. -/
def IsBare (prompt : Text) (count : Nat) (rest : Text) : Prop :=
  (Text.trimEnd prompt ≠ [] ∧ Text.trimEnd rest = Text.trimEnd prompt) ∨
    (1 ≤ count ∧ ∀ c ∈ rest, Text.isBlank c = true)

/-- A line without a text is bare, and the text of any other line is the rest behind its prompts. -/
theorem Prompted.strip?_eq (h : Prompted prompt count rest line) :
    (IsBare prompt count rest → strip? prompt line = none) ∧
      (¬IsBare prompt count rest → strip? prompt line = some rest) := by
  have hblanks : rest.length < line.length ∧ Text.allBlank rest = true ↔
      1 ≤ count ∧ ∀ c ∈ rest, Text.isBlank c = true :=
    and_congr h.length_lt_iff List.all_eq_true
  unfold strip? IsBare
  dsimp only
  rw [if_neg h.ne_nil, h.afterPrompts_eq, ← hblanks]
  constructor
  · rintro (hcut | hblank)
    · rw [if_pos hcut]
    · rw [if_pos hblank, ite_self]
  · intro hnot
    obtain ⟨hcut, hblank⟩ := not_or.mp hnot
    rw [if_neg hcut, if_neg hblank]

/-- **Prompts.** With an empty prompt, every line is its own text. With any other one, a line has
its prompts in one way only; it has no text if it is bare, and its text is what stands behind the
prompts otherwise. A text does not start with the prompt, and is its own text. -/
theorem strip?_prompted (prompt line : Text) :
    (prompt = [] → strip? prompt line = some line) ∧
    (prompt ≠ [] →
      (∃! parts : Nat × Text, Prompted prompt parts.1 parts.2 line) ∧
      (∀ count rest, Prompted prompt count rest line →
        (IsBare prompt count rest → strip? prompt line = none) ∧
        (¬IsBare prompt count rest → strip? prompt line = some rest)) ∧
      ∀ text, strip? prompt line = some text →
        ¬prompt <+: text ∧ strip? prompt text = some text) := by
  refine ⟨fun hprompt ↦ if_pos hprompt, fun hprompt ↦ ?_⟩
  obtain ⟨count, rest, hline⟩ := exists_prompted hprompt line
  refine ⟨⟨(count, rest), hline, fun parts hparts ↦ ?_⟩, fun _ _ h ↦ h.strip?_eq,
    fun text htext ↦ ?_⟩
  · obtain ⟨hcount, hrest⟩ := hline.unique hparts
    exact Prod.ext hcount hrest
  · have hbare : ¬IsBare prompt count rest := fun hbare ↦ by
      rw [hline.strip?_eq.1 hbare] at htext
      cases htext
    obtain rfl : rest = text := Option.some.inj ((hline.strip?_eq.2 hbare).symm.trans htext)
    refine ⟨hline.not_prefix, ?_⟩
    -- A text stands behind no prompt, and so it is bare only if it is a prompt itself.
    have hself : Prompted prompt 0 rest rest := prompted_zero_iff.mpr ⟨rfl, hline.not_prefix⟩
    refine hself.strip?_eq.2 ?_
    rintro (hcut | ⟨hzero, -⟩)
    · exact hbare (.inl hcut)
    · exact absurd hzero (Nat.not_succ_le_zero 0)

/-- The last prompt is cut within the blanks at its end, or before them, and then it is text. -/
example : strip? "> >  ".toList "> >  > > ".toList = none ∧
    strip? "> >  ".toList "> >  > ".toList = some "> ".toList := by decide +kernel

end Prompt

/-! ### Answers -/

namespace Session

variable {ω σ : Type} (name : Text) {profile : Profile} {session : Session σ}

theorem unmarked_iff {marker : Text} {ls : List Text} :
    Unmarked marker ls ↔ ∀ line ∈ ls, ¬marker <:+: line := by
  refine forall₂_congr fun line _ ↦ ?_
  rw [← Text.holds_eq_true_iff, Bool.not_eq_true]

/-- The lines up to the first one that holds the marker are taken, whether or not more lines may
come. -/
theorem readAnswer_of_marked {before after : List Text} {line : Text}
    (hqueue : session.queue = before ++ line :: after)
    (hbefore : ∀ l ∈ before, ¬profile.readyMarker <:+: l) (hline : profile.readyMarker <:+: line)
    (scene : Scene ω) : (readAnswer name profile session).outcome scene =
      (.ok (.ok (shown profile.prompt before), { session with queue := after }), scene) := by
  have hcollect : collect? profile.readyMarker profile.prompt session.queue =
      some (shown profile.prompt before, after) := by
    rw [hqueue]
    exact collect?_append (unmarked_iff.mpr hbefore) (Text.holds_eq_true_iff.mpr hline) after
  rw [readAnswer, hcollect]
  rfl

/-- Where no more lines come and none holds the marker, all are taken and there is no answer. -/
theorem readAnswer_of_unmarked (hended : session.ended = true)
    (h : ∀ line ∈ session.queue, ¬profile.readyMarker <:+: line) (scene : Scene ω) :
    (readAnswer name profile session).outcome scene =
      (.ok (.error (.interpreterExited name), { session with queue := [] }), scene) := by
  rw [readAnswer, collect?_eq_none_iff.mpr (unmarked_iff.mpr h)]
  dsimp only
  rw [if_pos hended]
  rfl

/-- The first of some lines that hold a marker. -/
theorem exists_first_marked {marker : Text} {ls : List Text} (h : ∃ line ∈ ls, marker <:+: line) :
    ∃ before line after, ls = before ++ line :: after ∧ (∀ l ∈ before, ¬marker <:+: l) ∧
      marker <:+: line := by
  cases hcollect : collect? marker [] ls with
  | none =>
    obtain ⟨line, hmem, hline⟩ := h
    exact absurd hline (unmarked_iff.mp (collect?_eq_none_iff.mp hcollect) line hmem)
  | some found =>
    obtain ⟨before, line, hls, hbefore, hline, -⟩ := collect?_eq_some_iff.mp hcollect
    exact ⟨before, line, found.2, hls, unmarked_iff.mp hbefore, Text.holds_eq_true_iff.mp hline⟩

/-- **One answer.** When no more lines come, taking an answer comes to a result, with a deadline or
without. There is an answer exactly if a line holds the marker. Then it is made by the texts of the
lines before the first such line, each with a line feed, and just the lines behind that one are
left. Without such a line none is left. -/
theorem readAnswer_consumes (name : Text) (profile : Profile) (session : Session σ)
    (hended : session.ended = true) (scene : Scene ω) :
    ∃ result last, (readAnswer name profile session).outcome scene = (.ok (result, last), scene) ∧
      ((∃ answer, result = .ok answer) ↔
        ∃ line ∈ session.queue, profile.readyMarker <:+: line) ∧
      (∀ before line after, session.queue = before ++ line :: after →
        (∀ l ∈ before, ¬profile.readyMarker <:+: l) → profile.readyMarker <:+: line →
        result = .ok (shown profile.prompt before) ∧ last = { session with queue := after }) ∧
      ((∀ line ∈ session.queue, ¬profile.readyMarker <:+: line) →
        result = .error (.interpreterExited name) ∧ last = { session with queue := [] }) := by
  by_cases hmarked : ∃ line ∈ session.queue, profile.readyMarker <:+: line
  · obtain ⟨before, line, after, hqueue, hbefore, hline⟩ := exists_first_marked hmarked
    have hread := readAnswer_of_marked name hqueue hbefore hline scene
    refine ⟨_, _, hread, iff_of_true ⟨_, rfl⟩ hmarked, fun before' line' after' hqueue' hbefore'
      hline' ↦ ?_, fun hunmarked ↦ ?_⟩
    · -- The first line that holds the marker is found at one place only.
      have hread' := readAnswer_of_marked name hqueue' hbefore' hline' scene
      exact Prod.mk.inj (Except.ok.inj (congrArg Prod.fst (hread.symm.trans hread')))
    · obtain ⟨l, hmem, hl⟩ := hmarked
      exact absurd hl (hunmarked l hmem)
  · have hunmarked : ∀ line ∈ session.queue, ¬profile.readyMarker <:+: line :=
      fun line hmem hline ↦ hmarked ⟨line, hmem, hline⟩
    refine ⟨_, _, readAnswer_of_unmarked name hended hunmarked scene, iff_of_false nofun hmarked,
      fun before line after hqueue _ hline ↦ ?_, fun _ ↦ ⟨rfl, rfl⟩⟩
    refine absurd hline (hunmarked line ?_)
    rw [hqueue]
    exact List.mem_append_right _ List.mem_cons_self

end Session

/-- An interpreter with a prompt and a short sentinel. -/
def Profile.terse : Profile where
  command := "repl".toList
  echo := Profile.sentinelPlaceholder
  prompt := "> ".toList
  sentinel := ['#']

/-- A session whose child has printed two answers and ended. -/
def Session.parting : Session Unit where
  child := ()
  queue := ["hello".toList, "> > 5".toList, "> ".toList, "> #".toList, "bye".toList, "> #".toList]
  ended := true

/-- The first answer is taken, and the second one waits. -/
theorem Session.readAnswer_parting : parting.ended = true ∧
    (readAnswer "repl".toList .terse parting).outcome ({ world := () } : Scene Unit) =
      (.ok (.ok "hello\n5\n".toList,
        { parting with queue := ["bye".toList, "> #".toList] }), { world := () }) := by
  have hended : parting.ended = true := rfl
  obtain ⟨result, last, hread, -, hmarked, -⟩ :=
    readAnswer_consumes "repl".toList .terse parting hended ({ world := () } : Scene Unit)
  have hshown : shown Profile.terse.prompt ["hello".toList, "> > 5".toList, "> ".toList] =
      "hello\n5\n".toList := by decide +kernel
  obtain ⟨rfl, rfl⟩ := hmarked ["hello".toList, "> > 5".toList, "> ".toList] "> #".toList
    ["bye".toList, "> #".toList] rfl (by decide) (by decide)
  rw [hshown] at hread
  exact ⟨hended, hread⟩

end Weave
