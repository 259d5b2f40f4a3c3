import Weave.Proofs.Decoding
import Weave.Proofs.Occurrence
import Weave.Run.Session

/-!
# Printed lines

What a child prints reaches its session as lines. This file says which lines those are when the
child prints whole lines, that none of them holds a line feed whatever the child prints, and how an
answer is taken from them.

## Main definitions

* `Weave.Line`: a line as a child prints it.
* `Weave.Session.shown`: the answer that some lines make.
* `Weave.Session.Tidy`: what holds of the lines of every session.

## Main results

* `Weave.Session.absorb_printed`: what a session takes in when its child prints whole lines.
* `Weave.Session.Tidy.absorb`: a tidy session stays so.
* `Weave.Session.collect?_eq_some_iff`, `Weave.Session.collect?_eq_none_iff`: which lines hold an
  answer, and which answer it is.
-/

namespace Weave

variable {σ : Type}

/-! ### The text of a line -/

namespace Text

theorem trimEndWhere_append_of_pos {p : Char → Bool} {c : Char} (h : p c = true) (t : Text) :
    trimEndWhere p (t ++ [c]) = trimEndWhere p t := by
  induction t with
  | nil => simp [trimEndWhere, h]
  | cons d ds ih => rw [List.cons_append, trimEndWhere, trimEndWhere, ih]

/-- A text of which something remains is what is removed from, whatever stands before it. -/
theorem trimEndWhere_append {p : Char → Bool} {t : Text} (h : trimEndWhere p t ≠ []) (s : Text) :
    trimEndWhere p (s ++ t) = s ++ trimEndWhere p t := by
  induction s with
  | nil => rfl
  | cons c cs ih =>
    rw [List.cons_append, trimEndWhere, ih]
    cases hrest : cs ++ trimEndWhere p t with
    | nil => exact absurd (List.append_eq_nil_iff.mp hrest).2 h
    | cons d ds => rw [List.cons_append, hrest]

/-- A text without line feeds that does not end with a carriage return has no line breaks at its
end. -/
theorem trimEndWhere_isLineBreak_eq_self {t : Text} (h : '\n' ∉ t)
    (hlast : t.getLast? ≠ some '\r') : trimEndWhere isLineBreak t = t := by
  refine trimEndWhere_eq_self_of_getLast? fun c hc ↦ ?_
  have hfeed : c ≠ '\n' := fun heq ↦ h (heq ▸ List.mem_of_getLast? hc)
  have hreturn : c ≠ '\r' := fun heq ↦ hlast (heq ▸ hc)
  simp [isLineBreak, hfeed, hreturn]

theorem mem_of_mem_trimEndWhere {p : Char → Bool} {c : Char} {t : Text}
    (h : c ∈ trimEndWhere p t) : c ∈ t := by
  obtain ⟨tail, ht, -⟩ := exists_trimEndWhere_append p t
  rw [ht]
  exact List.mem_append_left _ h

/-- Nothing is longer after its end has been removed. -/
theorem length_trimEndWhere_le (p : Char → Bool) (t : Text) :
    (trimEndWhere p t).length ≤ t.length := by
  obtain ⟨tail, ht, -⟩ := exists_trimEndWhere_append p t
  have := congrArg List.length ht
  rw [List.length_append] at this
  omega

/-- Lines that each end with a line feed are the lines joined by line feeds and one more of them. -/
theorem flatMap_append_lineFeed {ls : List Text} (h : ls ≠ []) :
    ls.flatMap (· ++ ['\n']) = joinWith ['\n'] ls ++ ['\n'] := by
  induction ls with
  | nil => exact absurd rfl h
  | cons line rest ih =>
    cases rest with
    | nil => rw [List.flatMap_singleton, joinWith]
    | cons next more =>
      have hjoin : joinWith ['\n'] (line :: next :: more) =
          line ++ ['\n'] ++ joinWith ['\n'] (next :: more) := by rw [joinWith]; simp
      rw [List.flatMap_cons, ih (by simp), hjoin, List.append_assoc _ _ ['\n']]

end Text

/-- A line as a child prints it: bytes that are followed by a line feed and hold none. -/
structure Line where
  bytes : Bytes
  complete : 10 ∉ bytes

namespace Line

/-- The line as a session takes it. -/
def text (line : Line) : Text := Session.lineText line.bytes

/-- Lines as they are printed. -/
def printed (ls : List Line) : Bytes := ls.flatMap fun line ↦ line.bytes ++ [10]

/-- The line with a given text. -/
def ofText (t : Text) (h : '\n' ∉ t) : Line := ⟨Utf8.encode t, Utf8.lineFeed_notMem_encode h⟩

/-- A line is taken as its text, unless that ends with a carriage return. -/
theorem text_ofText {t : Text} (h : '\n' ∉ t) (hlast : t.getLast? ≠ some '\r') :
    (ofText t h).text = t := by
  rw [ofText, text, Session.lineText, Utf8.decode_encode,
    Text.trimEndWhere_isLineBreak_eq_self h hlast]

end Line

namespace Session

/-- The line feed that ends a line is no part of its text. -/
theorem lineText_append_lineFeed (bytes : Bytes) : lineText (bytes ++ [10]) = lineText bytes := by
  rw [lineText, Utf8.decode_append_lineFeed, Text.trimEndWhere_append_of_pos (by decide), lineText]

theorem lineFeed_notMem_lineText {bytes : Bytes} (h : 10 ∉ bytes) : '\n' ∉ lineText bytes :=
  fun hmem ↦ Utf8.lineFeed_notMem_decode h (Text.mem_of_mem_trimEndWhere hmem)

/-! ### Output as lines -/

/-- The first line of some output ends at the first line feed. -/
theorem splitOutput_line (before : Bytes) {bytes : Bytes} (h : 10 ∉ bytes) (rest : Bytes) :
    splitOutput before (bytes ++ 10 :: rest) =
      (lineText (before.reverse ++ bytes) :: (splitOutput [] rest).1, (splitOutput [] rest).2) := by
  induction bytes generalizing before with
  | nil =>
    rw [List.nil_append, splitOutput, if_pos rfl, List.reverse_cons, lineText_append_lineFeed,
      List.append_nil]
  | cons b bs ih =>
    have hb : b ≠ 10 := fun hb ↦ h (hb ▸ List.mem_cons_self)
    have hbs : 10 ∉ bs := fun hmem ↦ h (List.mem_cons_of_mem _ hmem)
    rw [List.cons_append, splitOutput, if_neg hb, ih (b :: before) hbs, List.reverse_cons,
      List.append_assoc, List.singleton_append]

/-- Whole lines are taken as they are printed. -/
theorem splitOutput_printed (ls : List Line) :
    splitOutput [] (Line.printed ls) = (ls.map Line.text, []) := by
  induction ls with
  | nil => rfl
  | cons line ls ih =>
    have hsplit := splitOutput_line [] line.complete (Line.printed ls)
    rw [ih] at hsplit
    rw [Line.printed, List.flatMap_cons, List.append_assoc]
    exact hsplit

@[simp] theorem absorb_child (session : Session σ) (reaction : Reaction σ) :
    (session.absorb reaction).child = reaction.child := by
  unfold absorb
  dsimp only
  split <;> rfl

theorem absorb_ended (session : Session σ) (reaction : Reaction σ) :
    (session.absorb reaction).ended = (reaction.ended || session.ended) := by
  unfold absorb
  dsimp only
  split <;> simp_all

/-- A session whose child prints whole lines takes them in behind those that wait. -/
theorem absorb_printed {session : Session σ} (h : session.unfinished = []) (child : σ)
    (ls : List Line) (ended : Bool) :
    session.absorb ⟨child, Line.printed ls, ended⟩ =
      { session with
        child
        queue := session.queue ++ ls.map Line.text
        ended := ended || session.ended } := by
  obtain ⟨before, queue, unfinished, done⟩ := session
  obtain rfl : unfinished = [] := h
  cases ended <;> simp [absorb, splitOutput_printed]

/-- No line that waits to be taken holds a line feed. -/
structure Tidy (session : Session σ) : Prop where
  queue : ∀ line ∈ session.queue, '\n' ∉ line
  unfinished : 10 ∉ session.unfinished

/-- No line that is split off holds a line feed, nor does the start of the line behind them. -/
theorem splitOutput_tidy (before output : Bytes) (h : 10 ∉ before) :
    (∀ line ∈ (splitOutput before output).1, '\n' ∉ line) ∧ 10 ∉ (splitOutput before output).2 := by
  induction output generalizing before with
  | nil => simpa [splitOutput] using h
  | cons b bs ih =>
    rw [splitOutput]
    by_cases hb : b = 10
    · obtain ⟨hlines, hrest⟩ := ih [] (by simp)
      rw [if_pos hb]
      refine ⟨?_, hrest⟩
      rintro line (_ | ⟨_, hline⟩)
      · rw [hb, List.reverse_cons, lineText_append_lineFeed]
        exact lineFeed_notMem_lineText (by simpa using h)
      · exact hlines line hline
    · rw [if_neg hb]
      exact ih (b :: before) (by simp [Ne.symm hb, h])

/-- A tidy session stays so, whatever its child prints. -/
theorem Tidy.absorb {session : Session σ} (h : session.Tidy) (reaction : Reaction σ) :
    (session.absorb reaction).Tidy := by
  obtain ⟨hlines, hrest⟩ :=
    splitOutput_tidy session.unfinished.reverse reaction.output (by simpa using h.unfinished)
  unfold Session.absorb
  generalize splitOutput session.unfinished.reverse reaction.output = split at hlines hrest
  obtain ⟨ls, rest⟩ := split
  dsimp only
  split
  · refine ⟨?_, by simp⟩
    intro line hline
    rcases List.mem_append.mp hline with hline | hline
    · rcases List.mem_append.mp hline with hline | hline
      · exact h.queue line hline
      · exact hlines line hline
    · split at hline
      · cases hline
      · rw [List.mem_singleton.mp hline]
        exact lineFeed_notMem_lineText hrest
  · refine ⟨?_, hrest⟩
    intro line hline
    rcases List.mem_append.mp hline with hline | hline
    · exact h.queue line hline
    · exact hlines line hline

/-! ### Answers -/

/-- The answer that some lines make: each without its prompts and with a line feed. -/
def shown (prompt : Text) (ls : List Text) : Text :=
  (ls.filterMap (Prompt.strip? prompt)).flatMap (· ++ ['\n'])

/-- No line holds the marker. -/
def Unmarked (marker : Text) (ls : List Text) : Prop := ∀ line ∈ ls, Text.holds marker line = false

variable {marker prompt : Text}

/-- The lines before the first one that holds the marker make the answer. -/
theorem collect?_append {before : List Text} (h : Unmarked marker before) {line : Text}
    (hline : Text.holds marker line = true) (rest : List Text) :
    collect? marker prompt (before ++ line :: rest) = some (shown prompt before, rest) := by
  induction before with
  | nil => rw [List.nil_append, collect?, if_pos hline]; rfl
  | cons first before ih =>
    have hfirst : ¬Text.holds marker first = true := by simp [h first List.mem_cons_self]
    rw [List.cons_append, collect?, if_neg hfirst, ih fun l hl ↦ h l (List.mem_cons_of_mem _ hl),
      shown, shown, List.filterMap_cons]
    cases Prompt.strip? prompt first <;> simp

/-- There is no answer in lines none of which holds the marker. -/
theorem collect?_eq_none_iff {ls : List Text} :
    collect? marker prompt ls = none ↔ Unmarked marker ls := by
  induction ls with
  | nil => simp [collect?, Unmarked]
  | cons line rest ih =>
    rw [collect?]
    by_cases hline : Text.holds marker line = true
    · simp [hline, Unmarked]
    · rw [if_neg hline, Option.map_eq_none_iff, ih]
      simp [Unmarked, hline]

/-- An answer is made by the lines before the first one that holds the marker. -/
theorem collect?_eq_some_iff {ls rest : List Text} {answer : Text} :
    collect? marker prompt ls = some (answer, rest) ↔
      ∃ before line, ls = before ++ line :: rest ∧ Unmarked marker before ∧
        Text.holds marker line = true ∧ answer = shown prompt before := by
  constructor
  · intro h
    induction ls generalizing answer with
    | nil => cases h
    | cons first ls ih =>
      rw [collect?] at h
      by_cases hfirst : Text.holds marker first = true
      · rw [if_pos hfirst, Option.some.injEq, Prod.mk.injEq] at h
        obtain ⟨rfl, rfl⟩ := h
        exact ⟨[], first, rfl, by simp [Unmarked], hfirst, rfl⟩
      · rw [if_neg hfirst, Option.map_eq_some_iff] at h
        obtain ⟨⟨a, r⟩, har, heq⟩ := h
        have hr : r = rest := by
          have := congrArg Prod.snd heq
          cases hstrip : Prompt.strip? prompt first <;> simpa [hstrip] using this
        obtain ⟨before, line, rfl, hbefore, hline, rfl⟩ := ih (hr ▸ har)
        have hunmarked : Unmarked marker (first :: before) := by
          simpa [Unmarked, hfirst] using hbefore
        refine ⟨first :: before, line, rfl, hunmarked, hline, ?_⟩
        rw [shown, List.filterMap_cons]
        cases hstrip : Prompt.strip? prompt first <;>
          simpa [hstrip, shown, eq_comm] using congrArg Prod.fst heq
  · rintro ⟨before, line, rfl, hbefore, hline, rfl⟩
    exact collect?_append hbefore hline rest

/-- The answer without the line breaks at its end: the lines joined by line feeds, without those. -/
theorem trimEndWhere_shown (ls : List Text) :
    Text.trimEndWhere Text.isLineBreak (shown prompt ls) =
      Text.trimEndWhere Text.isLineBreak
        (Text.joinWith ['\n'] (ls.filterMap (Prompt.strip? prompt))) := by
  rw [shown]
  by_cases h : ls.filterMap (Prompt.strip? prompt) = []
  · rw [h]
    rfl
  · rw [Text.flatMap_append_lineFeed h, Text.trimEndWhere_append_of_pos (by decide)]

end Session

end Weave
