import Weave.Proofs.WrittenSegments

/-!
# Recognition of opening fences

Which lines open a block is said by a grammar: a line is cut into three backquotes, a language, the
keyword and a tail, with spaces and tabs between them. A line can be cut in several ways, since a
language may hold the keyword. The search finds the cut with the shortest language, and it finds one
if there is any. No such line closes a block.

## Main definitions

* `Weave.Fence.IsTail`: what may follow the keyword.
* `Weave.Fence.Reads`: a way to cut an opening fence.

## Main results

* `Weave.Fence.afterKeyword?_eq_some_iff`, `Weave.Fence.language?_eq_some_iff`: what the two parts
  of the search find.
* `Weave.Fence.opening?_recognizes`: which lines are opening fences, and what they open.
-/

namespace Weave

namespace Text

/-- What is removed at the start of a text ends before the first character that is kept. -/
theorem trimStartWhere_append_cons {p : Char → Bool} {front : Text} {c : Char}
    (hfront : ∀ d ∈ front, p d = true) (hc : p c = false) (cs : Text) :
    trimStartWhere p (front ++ c :: cs) = c :: cs := by
  rw [trimStartWhere, List.dropWhile_append_of_pos hfront]
  exact trimStartWhere_cons_of_not hc cs

/-- What is removed at the start of a text, with the text that is kept, is the whole text. -/
theorem exists_append_trimStartWhere (p : Char → Bool) (t : Text) :
    ∃ front, t = front ++ trimStartWhere p t ∧ ∀ c ∈ front, p c = true :=
  ⟨t.takeWhile p, List.takeWhile_append_dropWhile.symm, List.all_eq_true.mp List.all_takeWhile⟩

end Text

namespace Fence

/-! ### The keyword -/

/-- What may follow the keyword: nothing, or a space or tab and text on the same line. -/
structure IsTail (tail : Text) : Prop where
  separated : ∀ c, tail.head? = some c → Text.isSpaceOrTab c = true
  lineFeed : '\n' ∉ tail

/-- The keyword is found behind spaces and tabs, before what may follow it. -/
theorem afterKeyword?_eq_some_iff {t tail : Text} :
    afterKeyword? t = some tail ↔ IsTail tail ∧
      ∃ blanks, (∀ c ∈ blanks, Text.isSpaceOrTab c = true) ∧ t = blanks ++ keyword ++ tail := by
  constructor
  · intro h
    obtain ⟨blanks, ht, hblanks⟩ := Text.exists_append_trimStartWhere Text.isSpaceOrTab t
    rw [afterKeyword?] at h
    cases hafter : Text.after? keyword (Text.trimStartWhere Text.isSpaceOrTab t) with
    | none => simp [hafter] at h
    | some rest =>
      rw [Text.after?_eq_some_iff.mp hafter, ← List.append_assoc] at ht
      cases rest with
      | nil =>
        obtain rfl : [] = tail := by simpa [hafter] using h
        exact ⟨⟨by simp, List.not_mem_nil⟩, blanks, hblanks, ht⟩
      | cons c cs =>
        obtain ⟨⟨hc, hfeed⟩, rfl⟩ :
            (Text.isSpaceOrTab c = true ∧ '\n' ∉ cs) ∧ c :: cs = tail := by
          simpa [hafter] using h
        have hne : '\n' ≠ c := by
          rintro rfl
          cases hc
        refine ⟨⟨fun d hd ↦ ?_, List.not_mem_cons_of_ne_of_not_mem hne hfeed⟩, blanks, hblanks, ht⟩
        obtain rfl : c = d := by simpa using hd
        exact hc
  · rintro ⟨htail, blanks, hblanks, rfl⟩
    have htrim : Text.trimStartWhere Text.isSpaceOrTab (blanks ++ keyword ++ tail) =
        keyword ++ tail := by
      rw [List.append_assoc]
      exact Text.trimStartWhere_append_cons hblanks (by decide) _
    have hafter : Text.after? keyword (keyword ++ tail) = some tail :=
      Text.after?_eq_some_iff.mpr rfl
    rw [afterKeyword?, htrim, hafter]
    cases tail with
    | nil => rfl
    | cons c cs =>
      exact if_pos ⟨htail.separated c rfl, mt (List.mem_cons_of_mem c) htail.lineFeed⟩

/-! ### The language -/

/-- A text that starts with a language behind which the keyword is found. -/
def Leads (t language tail : Text) : Prop :=
  language.IsToken ∧ ∃ rest, t = language ++ rest ∧ afterKeyword? rest = some tail

/-- A language of one character, or one more character of a language. -/
theorem leads_cons_iff {c : Char} {cs language tail : Text} :
    Leads (c :: cs) language tail ↔ Text.isBlank c = false ∧
      (language = [c] ∧ afterKeyword? cs = some tail ∨
        ∃ shorter, language = c :: shorter ∧ Leads cs shorter tail) := by
  constructor
  · rintro ⟨htoken, rest, heq, hafter⟩
    cases language with
    | nil => exact absurd rfl htoken.ne_nil
    | cons d shorter =>
      obtain ⟨rfl, rfl⟩ := List.cons.inj heq
      refine ⟨htoken.isBlank_eq_false c List.mem_cons_self, ?_⟩
      by_cases hnil : shorter = []
      · exact .inl ⟨by rw [hnil], by simpa [hnil] using hafter⟩
      · have hshorter : Text.IsToken shorter :=
          ⟨hnil, fun d hd ↦ htoken.isBlank_eq_false d (List.mem_cons_of_mem _ hd)⟩
        exact .inr ⟨shorter, rfl, hshorter, rest, rfl, hafter⟩
  · rintro ⟨hc, ⟨rfl, hafter⟩ | ⟨shorter, rfl, htoken, rest, rfl, hafter⟩⟩
    · exact ⟨⟨List.cons_ne_nil c [], by simpa using hc⟩, cs, rfl, hafter⟩
    · exact ⟨⟨List.cons_ne_nil c shorter, List.forall_mem_cons.mpr ⟨hc, htoken.isBlank_eq_false⟩⟩,
        rest, rfl, hafter⟩

/-- The shortest language is found. -/
theorem language?_eq_some_iff {t language tail : Text} :
    language? t = some (language, tail) ↔ Leads t language tail ∧
      ∀ other rest, Leads t other rest → language.length ≤ other.length := by
  induction t generalizing language with
  | nil =>
    constructor
    · intro h
      cases h
    · rintro ⟨⟨htoken, rest, heq, -⟩, -⟩
      exact absurd (List.append_eq_nil_iff.mp heq.symm).1 htoken.ne_nil
  | cons c cs ih =>
    rw [language?]
    simp only [leads_cons_iff]
    cases hc : Text.isBlank c with
    | true => simp
    | false =>
      cases hafter : afterKeyword? cs with
      | some found =>
        -- No language is shorter than one character.
        constructor
        · intro h
          obtain ⟨rfl, rfl⟩ : [c] = language ∧ found = tail := by simpa using h
          refine ⟨⟨rfl, .inl ⟨rfl, rfl⟩⟩, ?_⟩
          rintro other rest ⟨-, ⟨rfl, -⟩ | ⟨shorter, rfl, -⟩⟩ <;> simp
        · rintro ⟨⟨-, ⟨rfl, hfound⟩ | ⟨shorter, rfl, hshorter⟩⟩, hleast⟩
          · simpa using hfound
          · have hlength := hleast [c] found ⟨rfl, .inl ⟨rfl, rfl⟩⟩
            have hpos := List.length_pos_of_ne_nil hshorter.1.ne_nil
            simp only [List.length_cons, List.length_nil] at hlength
            omega
      | none =>
        constructor
        · intro h
          obtain ⟨shorter, hshorter, rfl⟩ :
              ∃ shorter, language? cs = some (shorter, tail) ∧ c :: shorter = language := by
            simpa using h
          obtain ⟨hleads, hleast⟩ := ih.mp hshorter
          refine ⟨⟨rfl, .inr ⟨shorter, rfl, hleads⟩⟩, ?_⟩
          rintro other rest ⟨-, ⟨-, hsome⟩ | ⟨more, rfl, hmore⟩⟩
          · cases hsome
          · exact Nat.succ_le_succ (hleast more rest hmore)
        · rintro ⟨⟨-, ⟨-, hsome⟩ | ⟨shorter, rfl, hshorter⟩⟩, hleast⟩
          · cases hsome
          · have hfound : language? cs = some (shorter, tail) :=
              ih.mpr ⟨hshorter, fun more rest hmore ↦ Nat.le_of_succ_le_succ
                (hleast (c :: more) rest ⟨rfl, .inr ⟨more, rfl, hmore⟩⟩)⟩
            simp [hfound]

/-- A language is found if there is one. -/
theorem language?_eq_none_iff {t : Text} :
    language? t = none ↔ ∀ language tail, ¬Leads t language tail := by
  induction t with
  | nil =>
    refine ⟨fun _ language tail ↦ ?_, fun _ ↦ rfl⟩
    rintro ⟨htoken, rest, heq, -⟩
    exact htoken.ne_nil (List.append_eq_nil_iff.mp heq.symm).1
  | cons c cs ih =>
    rw [language?]
    simp only [leads_cons_iff]
    cases hc : Text.isBlank c with
    | true => simp
    | false =>
      cases hafter : afterKeyword? cs with
      | some found =>
        refine ⟨fun h ↦ ?_, fun h ↦ absurd ⟨rfl, .inl ⟨rfl, rfl⟩⟩ (h [c] found)⟩
        cases h
      | none =>
        simp only [Bool.false_eq_true, if_false, Option.map_eq_none_iff, ih, true_and, reduceCtorEq,
          and_false, false_or, not_exists, not_and]
        exact ⟨fun h language tail shorter _ ↦ h shorter tail,
          fun h language tail ↦ h (c :: language) tail language rfl⟩

/-! ### The whole line -/

/-- A way to cut a text as an opening fence: three backquotes, the language, the keyword and a tail,
with spaces and tabs around the language. -/
structure Reads (t language tail : Text) : Prop where
  isToken : language.IsToken
  isTail : IsTail tail
  text : ∃ first second, (∀ c ∈ first, Text.isSpaceOrTab c = true) ∧
    (∀ c ∈ second, Text.isSpaceOrTab c = true) ∧
      t = ticks ++ first ++ language ++ second ++ keyword ++ tail

/-- The language stands where the spaces and tabs behind the backquotes end. -/
theorem reads_iff_leads {t language tail : Text} :
    Reads t language tail ↔ ∃ rest, Text.after? ticks t = some rest ∧
      Leads (Text.trimStartWhere Text.isSpaceOrTab rest) language tail := by
  constructor
  · rintro ⟨htoken, htail, first, second, hfirst, hsecond, rfl⟩
    refine ⟨first ++ (language ++ (second ++ keyword ++ tail)),
      Text.after?_eq_some_iff.mpr (by simp only [List.append_assoc]), htoken,
      second ++ keyword ++ tail, ?_, afterKeyword?_eq_some_iff.mpr ⟨htail, second, hsecond, rfl⟩⟩
    cases language with
    | nil => exact absurd rfl htoken.ne_nil
    | cons c cs =>
      have hc := Text.isSpaceOrTab_eq_false (htoken.isBlank_eq_false c List.mem_cons_self)
      exact Text.trimStartWhere_append_cons hfirst hc _
  · rintro ⟨rest, hticks, htoken, more, hlanguage, hafter⟩
    obtain ⟨first, hrest, hfirst⟩ := Text.exists_append_trimStartWhere Text.isSpaceOrTab rest
    obtain ⟨htail, second, hsecond, rfl⟩ := afterKeyword?_eq_some_iff.mp hafter
    refine ⟨htoken, htail, first, second, hfirst, hsecond, ?_⟩
    rw [Text.after?_eq_some_iff.mp hticks, hrest, hlanguage]
    simp only [List.append_assoc]

/-- A closing fence is three backquotes and blanks, and so holds no language. -/
theorem isBlank_of_isClosing {line : Text} (h : isClosing line = true) :
    ∃ blanks, line = ticks ++ blanks ∧ ∀ c ∈ blanks, Text.isBlank c = true := by
  obtain ⟨blanks, hline, hblanks⟩ := Text.exists_trimEndWhere_append Text.isBlank line
  have htrim : Text.trimEndWhere Text.isBlank line = ticks := of_decide_eq_true h
  exact ⟨blanks, by rw [← htrim]; exact hline, List.all_eq_true.mp hblanks⟩

/-- An opening fence is no closing fence. -/
theorem Reads.isClosing_eq_false {line language tail : Text}
    (h : Reads (Text.trimEndWhere Text.isLineBreak line) language tail) :
    isClosing line = false := by
  refine Bool.eq_false_iff.mpr fun hclosing ↦ ?_
  obtain ⟨blanks, hline, hblanks⟩ := isBlank_of_isClosing hclosing
  obtain ⟨htoken, -, first, second, -, -, hreads⟩ := h
  obtain ⟨breaks, htrim, -⟩ := Text.exists_trimEndWhere_append Text.isLineBreak line
  rw [hreads, hline] at htrim
  -- Behind the backquotes one side has blanks only, and the other one the language.
  have hequal : blanks = first ++ language ++ second ++ keyword ++ tail ++ breaks := by
    simpa only [List.append_assoc, List.append_cancel_left_eq] using htrim
  obtain ⟨c, hc⟩ := List.exists_mem_of_ne_nil _ htoken.ne_nil
  have hblank : Text.isBlank c = true := hblanks c (by simp [hequal, hc])
  rw [htoken.isBlank_eq_false c hc] at hblank
  cases hblank

/-- **Opening fences.** Let a line be taken without the line breaks at its end. It is an opening
fence exactly if it can be cut into three backquotes, a language, the keyword and a tail; the
language is then the shortest one of all cuts, and the options are the words of the tail. No line is
both an opening and a closing fence. -/
theorem opening?_recognizes (line : Text) :
    let t := Text.trimEndWhere Text.isLineBreak line
    (∀ language options, opening? line = some (language, options) ↔
      (∃ tail, Reads t language tail ∧ options = Text.words tail) ∧
        ∀ other tail, Reads t other tail → language.length ≤ other.length) ∧
    (opening? line = none ↔ ∀ language tail, ¬Reads t language tail) ∧
    ¬((opening? line).isSome = true ∧ isClosing line = true) := by
  intro t
  have hnone : opening? line = none ↔ ∀ language tail, ¬Reads t language tail := by
    simp only [reads_iff_leads]
    rw [opening?]
    cases Text.after? ticks t with
    | none => simp
    | some rest => simp [language?_eq_none_iff]
  refine ⟨fun language options ↦ ?_, hnone, ?_⟩
  · simp only [reads_iff_leads]
    rw [opening?]
    cases Text.after? ticks t with
    | none => simp
    | some rest =>
      simp only [Option.map_eq_some_iff, Prod.mk.injEq, Prod.exists, language?_eq_some_iff,
        Option.some.injEq, exists_eq_left']
      constructor
      · rintro ⟨found, tail, ⟨hleads, hleast⟩, rfl, rfl⟩
        exact ⟨⟨tail, hleads, rfl⟩, hleast⟩
      · rintro ⟨⟨tail, hleads, rfl⟩, hleast⟩
        exact ⟨language, tail, ⟨hleads, hleast⟩, rfl, rfl⟩
  · rintro ⟨hopening, hclosing⟩
    have hreads : ¬∀ language tail, ¬Reads t language tail := fun h ↦ by
      rw [hnone.mpr h] at hopening
      cases hopening
    obtain ⟨language, tail, h⟩ : ∃ language tail, Reads t language tail := by
      simpa only [not_forall, not_not] using hreads
    rw [h.isClosing_eq_false] at hclosing
    cases hclosing

/-- A language that holds the keyword and backquotes, behind a tab. -/
example : opening? "\x60\x60\x60\texec\x60exec  exec -p\r\n".toList =
    some ("exec\x60".toList, ["exec".toList, "-p".toList]) := by decide +kernel

end Fence

end Weave
