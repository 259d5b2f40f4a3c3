import Weave.Proofs.Cover
import Weave.Proofs.Printed

/-!
# Written segments

Segments that are written out are found again when the text is scanned. The language of a block may
be any token, also one that holds the keyword or backquotes: the opening fence ends at the first
keyword that nothing or a blank follows, and that is the one that was written after the language.

## Main definitions

* `Weave.Text.IsToken`: text that may stand as a language or as an option.
* `Weave.CodeBlock.IsWritable`, `Weave.Segment.Writable`: what can be written out.

## Main results

* `Weave.Fence.opening?_written`: the opening fence of a block that is written out.
* `Weave.Segment.scan_flatMap_render`: scanning undoes writing.
-/

namespace Weave

/-! ### Tokens -/

namespace Text

/-- A text that is not empty and holds no blank. -/
structure IsToken (t : Text) : Prop where
  ne_nil : t ≠ []
  isBlank_eq_false : ∀ c ∈ t, isBlank c = false

theorem isBlank_of_isSpaceOrTab {c : Char} (h : isSpaceOrTab c = true) : isBlank c = true := by
  simp only [isSpaceOrTab, Bool.or_eq_true, decide_eq_true_eq] at h
  rcases h with rfl | rfl <;> decide

theorem isBlank_of_isLineBreak {c : Char} (h : isLineBreak c = true) : isBlank c = true := by
  simp only [isLineBreak, Bool.or_eq_true, decide_eq_true_eq] at h
  rcases h with rfl | rfl <;> decide

theorem isSpaceOrTab_eq_false {c : Char} (h : isBlank c = false) : isSpaceOrTab c = false := by
  by_contra hc
  rw [isBlank_of_isSpaceOrTab (by simpa using hc)] at h
  cases h

theorem isLineBreak_eq_false {c : Char} (h : isBlank c = false) : isLineBreak c = false := by
  by_contra hc
  rw [isBlank_of_isLineBreak (by simpa using hc)] at h
  cases h

/-- A property that no character of a text is found to have is false of each of them. -/
theorem eq_false_of_any {p : Char → Bool} {t : Text} (h : t.any p = false) : ∀ c ∈ t, p c = false :=
  fun c hc ↦ Bool.eq_false_iff.mpr (List.any_eq_false.mp h c hc)

/-- Nothing is removed from the end of a text that holds no character to be removed. -/
theorem trimEndWhere_eq_self {p : Char → Bool} {t : Text} (h : ∀ c ∈ t, p c = false) :
    trimEndWhere p t = t :=
  trimEndWhere_eq_self_of_getLast? fun c hc ↦ h c (List.mem_of_getLast? hc)

/-- Nothing is removed before a character that is not blank. -/
theorem trimStartWhere_cons_of_not {p : Char → Bool} {c : Char} (h : p c = false) (cs : Text) :
    trimStartWhere p (c :: cs) = c :: cs := by
  simp [trimStartWhere, h]

/-- The first word ends where a blank, or nothing, follows. -/
theorem words_token_append {token rest : Text} (h : token.IsToken)
    (hrest : ∀ c, rest.head? = some c → isBlank c = true) :
    words (token ++ rest) = token :: words rest := by
  induction token with
  | nil => exact absurd rfl h.ne_nil
  | cons c cs ih =>
    have hc : ¬isBlank c = true := by simp [h.isBlank_eq_false c List.mem_cons_self]
    rw [List.cons_append, words.eq_def]
    simp only [if_neg hc]
    cases cs with
    | nil =>
      cases rest with
      | nil => rfl
      | cons d ds => simp [hrest d rfl]
    | cons d ds =>
      have hd : ¬isBlank d = true := by simp [h.isBlank_eq_false d (by simp)]
      have htail : IsToken (d :: ds) :=
        ⟨by simp, fun e he ↦ h.isBlank_eq_false e (List.mem_cons_of_mem _ he)⟩
      have hwords : words (d :: (ds ++ rest)) = (d :: ds) :: words rest := ih htail
      simp only [List.cons_append, if_neg hd, hwords]

/-- Tokens that each stand behind a space are the words. -/
theorem words_flatMap_space {tokens : List Text} (h : ∀ token ∈ tokens, token.IsToken) :
    words (tokens.flatMap (' ' :: ·)) = tokens := by
  induction tokens with
  | nil => rfl
  | cons token tokens ih =>
    have htokens : ∀ c, (tokens.flatMap (' ' :: ·)).head? = some c → isBlank c = true := by
      intro c hc
      cases tokens with
      | nil => cases hc
      | cons next more =>
        obtain rfl : ' ' = c := Option.some.inj hc
        decide
    have hspace : isBlank ' ' = true := by decide
    rw [List.flatMap_cons, List.cons_append, words.eq_def]
    simp only [if_pos hspace]
    rw [words_token_append (h token List.mem_cons_self) htokens,
      ih fun t ht ↦ h t (List.mem_cons_of_mem _ ht)]

end Text

/-! ### Opening fences -/

namespace Fence

/-- The keyword is found where nothing follows it, or a space and text without line feeds. -/
theorem afterKeyword?_keyword {tail : Text} (h : tail.head?.all (· = ' ') = true)
    (hfeed : '\n' ∉ tail) : afterKeyword? (keyword ++ tail) = some tail := by
  have htrim : Text.trimStartWhere Text.isSpaceOrTab (keyword ++ tail) = keyword ++ tail := rfl
  have hafter : Text.after? keyword (keyword ++ tail) = some tail :=
    Text.after?_eq_some_iff.mpr rfl
  rw [afterKeyword?, htrim, hafter]
  cases tail with
  | nil => rfl
  | cons c cs =>
    obtain rfl : c = ' ' := by simpa using h
    have hcs : '\n' ∉ cs := fun hmem ↦ hfeed (List.mem_cons_of_mem _ hmem)
    exact if_pos ⟨rfl, hcs⟩

/-- In a token that ends with the keyword, and goes on before it, no earlier keyword is found: what
follows that one is part of the token. -/
theorem afterKeyword?_append_keyword {t : Text} (h : t.IsToken) (tail : Text) :
    afterKeyword? (t ++ keyword ++ tail) = none := by
  have hkeyword : ∀ c ∈ keyword, Text.isBlank c = false :=
    Text.eq_false_of_any (by decide)
  have hblank : ∀ c ∈ t ++ keyword, Text.isBlank c = false := fun c hc ↦
    (List.mem_append.mp hc).elim (h.isBlank_eq_false c) (hkeyword c)
  have htrim : Text.trimStartWhere Text.isSpaceOrTab (t ++ keyword ++ tail) =
      t ++ keyword ++ tail := by
    cases t with
    | nil => exact absurd rfl h.ne_nil
    | cons c cs =>
      exact Text.trimStartWhere_cons_of_not
        (Text.isSpaceOrTab_eq_false (h.isBlank_eq_false c List.mem_cons_self)) _
  rw [afterKeyword?, htrim]
  cases hafter : Text.after? keyword (t ++ keyword ++ tail) with
  | none => rfl
  | some rest =>
    have hlength : 0 < t.length := List.length_pos_of_ne_nil h.ne_nil
    rcases List.append_eq_append_iff.mp (Text.after?_eq_some_iff.mp hafter) with
      ⟨more, heq, -⟩ | ⟨more, heq, hrest⟩
    · have := congrArg List.length heq
      simp only [List.length_append] at this
      omega
    · cases more with
      | nil =>
        have := congrArg List.length heq
        simp only [List.length_append, List.length_nil] at this
        omega
      | cons c cs =>
        have hc : Text.isBlank c = false := hblank c (by rw [heq]; simp)
        simp [hrest, Text.isSpaceOrTab_eq_false hc]

/-- The shortest language that leaves a keyword behind it is the whole token before the last
keyword. -/
theorem language?_append_keyword {language tail : Text} (h : language.IsToken)
    (htail : tail.head?.all (· = ' ') = true) (hfeed : '\n' ∉ tail) :
    language? (language ++ keyword ++ tail) = some (language, tail) := by
  induction language with
  | nil => exact absurd rfl h.ne_nil
  | cons c cs ih =>
    have hc : ¬Text.isBlank c = true := by simp [h.isBlank_eq_false c List.mem_cons_self]
    rw [List.cons_append, List.cons_append, language?, if_neg hc]
    by_cases hcs : cs = []
    · rw [hcs, List.nil_append, afterKeyword?_keyword htail hfeed]
    · have htoken : Text.IsToken cs :=
        ⟨hcs, fun d hd ↦ h.isBlank_eq_false d (List.mem_cons_of_mem _ hd)⟩
      rw [afterKeyword?_append_keyword htoken, ih htoken]
      rfl

variable {language : Text} {options : List Text}

/-- What is written on the line of an opening fence holds no line break. -/
theorem isLineBreak_written (hlanguage : language.IsToken)
    (hoptions : ∀ option ∈ options, option.IsToken) :
    ∀ c ∈ ticks ++ language ++ keyword ++ options.flatMap (' ' :: ·),
      Text.isLineBreak c = false := by
  have hfixed : ∀ c ∈ ticks ++ keyword, Text.isLineBreak c = false :=
    Text.eq_false_of_any (by decide)
  intro c hc
  simp only [List.mem_append, List.mem_flatMap, List.mem_cons] at hc hfixed
  rcases hc with ((hc | hc) | hc) | ⟨option, hoption, rfl | hc⟩
  · exact hfixed c (.inl hc)
  · exact Text.isLineBreak_eq_false (hlanguage.isBlank_eq_false c hc)
  · exact hfixed c (.inr hc)
  · rfl
  · exact Text.isLineBreak_eq_false ((hoptions option hoption).isBlank_eq_false c hc)

/-- The opening fence of a block that is written out shows its language and its options. -/
theorem opening?_written (hlanguage : language.IsToken)
    (hoptions : ∀ option ∈ options, option.IsToken) :
    opening? (ticks ++ language ++ keyword ++ options.flatMap (' ' :: ·) ++ ['\n']) =
      some (language, options) := by
  have hbreak := isLineBreak_written hlanguage hoptions
  have hfeed : '\n' ∉ options.flatMap (' ' :: ·) := fun hmem ↦ by
    have := hbreak '\n' (List.mem_append_right _ hmem)
    cases this
  have htail : (options.flatMap (' ' :: ·)).head?.all (· = ' ') = true := by
    cases options <;> rfl
  have hafter : Text.after? ticks (ticks ++ language ++ keyword ++ options.flatMap (' ' :: ·)) =
      some (language ++ keyword ++ options.flatMap (' ' :: ·)) :=
    Text.after?_eq_some_iff.mpr (by simp only [List.append_assoc])
  have htrim : Text.trimStartWhere Text.isSpaceOrTab
      (language ++ keyword ++ options.flatMap (' ' :: ·)) =
        language ++ keyword ++ options.flatMap (' ' :: ·) := by
    cases language with
    | nil => exact absurd rfl hlanguage.ne_nil
    | cons c cs =>
      exact Text.trimStartWhere_cons_of_not
        (Text.isSpaceOrTab_eq_false (hlanguage.isBlank_eq_false c List.mem_cons_self)) _
  rw [opening?, Text.trimEndWhere_append_of_pos (by decide), Text.trimEndWhere_eq_self hbreak,
    hafter]
  simp only [htrim, language?_append_keyword hlanguage htail hfeed, Option.map_some,
    Text.words_flatMap_space hoptions]

end Fence

/-! ### Writing and scanning -/

/-- A block that can be written out: its language and its options are tokens, and its body consists
of whole lines none of which is a closing fence. -/
structure CodeBlock.IsWritable (block : CodeBlock) : Prop where
  language : block.language.IsToken
  options : ∀ option ∈ block.options, option.IsToken
  ends : Text.endsLine block.body = true
  isOpen : ∀ line ∈ Text.brokenLines block.body, Fence.isClosing line = false

namespace Segment

/-- Segments that can be written out. Between two blocks stands at most one literal; it is not
empty, holds no opening fence, and ends its last line unless it is the last segment. -/
inductive Writable : List Segment → Prop
  | nil : Writable []
  | code {block : CodeBlock} {rest : List Segment} (hblock : block.IsWritable)
      (hrest : Writable rest) : Writable (.code block :: rest)
  | last {text : Text} (hne : text ≠ []) (hplain : IsPlain text) : Writable [.literal text]
  | literal {text : Text} {block : CodeBlock} {rest : List Segment} (hne : text ≠ [])
      (hplain : IsPlain text) (hends : Text.endsLine text = true)
      (hrest : Writable (.code block :: rest)) : Writable (.literal text :: .code block :: rest)

/-- The first closing fence is found behind the lines before it. -/
theorem splitAtClosing?_append {body : List Text} {closing : Text} (after : List Text)
    (h : ∀ line ∈ body, Fence.isClosing line = false) (hclosing : Fence.isClosing closing = true) :
    splitAtClosing? (body ++ closing :: after) = some (body, after) := by
  induction body with
  | nil => rw [List.nil_append, splitAtClosing?, if_pos hclosing]
  | cons line body ih =>
    have hline : ¬Fence.isClosing line = true := by simp [h line List.mem_cons_self]
    rw [List.cons_append, splitAtClosing?, if_neg hline,
      ih fun l hl ↦ h l (List.mem_cons_of_mem _ hl)]
    rfl

/-- Lines without an opening fence join the literal lines before them. -/
theorem scanLines_append {ls : List Text} (h : ∀ line ∈ ls, Fence.opening? line = none)
    (before rest : List Text) :
    scanLines before (ls ++ rest) = scanLines (ls.reverse ++ before) rest := by
  induction ls generalizing before with
  | nil => rfl
  | cons line ls ih =>
    rw [List.cons_append, scanLines]
    simp only [h line List.mem_cons_self]
    rw [ih (fun l hl ↦ h l (List.mem_cons_of_mem _ hl)), List.reverse_cons, List.append_assoc,
      List.singleton_append]

/-- A text without an opening fence is one literal. -/
theorem ofLines_brokenLines {text : Text} (hne : text ≠ []) :
    ofLines (Text.brokenLines text) = [.literal text] := by
  rw [ofLines, if_neg (mt Text.brokenLines_eq_nil_iff.mp hne), Text.flatten_brokenLines]

/-- The lines of a block that is written out: the opening fence, the body and the closing fence. -/
theorem brokenLines_render {block : CodeBlock} (h : block.IsWritable) (rest : Text) :
    ∃ opening closing, Fence.opening? opening = some (block.language, block.options) ∧
      Fence.isClosing closing = true ∧
      Text.brokenLines (render (.code block) ++ rest) =
        opening :: (Text.brokenLines block.body ++ closing :: Text.brokenLines rest) := by
  let fence := Fence.ticks ++ block.language ++ Fence.keyword ++ block.options.flatMap (' ' :: ·)
  have hfence : '\n' ∉ fence := fun hmem ↦ by
    have := Fence.isLineBreak_written h.language h.options '\n' hmem
    cases this
  have hclosing : Fence.isClosing (Fence.ticks ++ ['\n']) = true := by decide
  refine ⟨fence ++ ['\n'], Fence.ticks ++ ['\n'], Fence.opening?_written h.language h.options,
    hclosing, ?_⟩
  have hrender : render (.code block) ++ rest =
      (fence ++ ['\n']) ++ (block.body ++ ((Fence.ticks ++ ['\n']) ++ rest)) := by
    simp only [render, fence, List.append_assoc]
  rw [hrender, Text.brokenLines_append (Text.endsLine_append_lineFeed fence),
    Text.brokenLines_append_lineFeed hfence, Text.brokenLines_append h.ends,
    Text.brokenLines_append (Text.endsLine_append_lineFeed Fence.ticks)]
  rfl

/-- The scan finds the block between an opening fence and the first closing fence behind it. -/
theorem scanLines_fenced {opening closing language : Text} {options body : List Text}
    (hopens : Fence.opening? opening = some (language, options))
    (hopen : ∀ line ∈ body, Fence.isClosing line = false) (hcloses : Fence.isClosing closing = true)
    (before rest : List Text) :
    scanLines before (opening :: (body ++ closing :: rest)) =
      ofLines before.reverse ++ .code ⟨language, options, body.flatten⟩ :: scanLines [] rest := by
  rw [scanLines]
  simp only [hopens]
  split
  · rename_i hnone
    rw [splitAtClosing?_append _ hopen hcloses] at hnone
    cases hnone
  · rename_i found after hsome
    rw [splitAtClosing?_append _ hopen hcloses, Option.some.injEq, Prod.mk.injEq] at hsome
    obtain ⟨rfl, rfl⟩ := hsome
    rfl

/-- The scan finds a block that is written out, behind the literal lines before it. -/
theorem scanLines_render {block : CodeBlock} (h : block.IsWritable) (before : List Text)
    (rest : Text) :
    scanLines before (Text.brokenLines (render (.code block) ++ rest)) =
      ofLines before.reverse ++ .code block :: scan rest := by
  obtain ⟨opening, closing, hopening, hclosing, hlines⟩ := brokenLines_render h rest
  rw [hlines, scanLines_fenced hopening h.isOpen hclosing, Text.flatten_brokenLines, scan]

/-- **Scanning undoes writing.** Segments that can be written out are what the scan finds in the
text that is written. -/
theorem scan_flatMap_render {segments : List Segment} (h : Writable segments) :
    scan (segments.flatMap render) = segments := by
  induction h with
  | nil => rw [List.flatMap_nil, scan, Text.brokenLines_nil, scanLines]; rfl
  | @code block rest hblock _ ih =>
    rw [List.flatMap_cons, scan, scanLines_render hblock, ih]
    rfl
  | @last text hne hplain =>
    have hlines : scanLines [] (Text.brokenLines text ++ []) = ofLines (Text.brokenLines text) := by
      rw [scanLines_append hplain, scanLines, List.append_nil, List.reverse_reverse]
    rw [List.flatMap_singleton, scan, render, ← List.append_nil (Text.brokenLines text), hlines,
      ofLines_brokenLines hne]
  | @literal text block rest hne hplain hends hrest ih =>
    cases hrest with
    | code hblock hrest =>
      -- What is scanned behind the block is the same whether or not a literal stands before it.
      rw [List.flatMap_cons, scan, scanLines_render hblock] at ih
      rw [List.flatMap_cons, scan, render, Text.brokenLines_append hends, scanLines_append hplain,
        List.flatMap_cons, scanLines_render hblock, List.append_nil, List.reverse_reverse,
        ofLines_brokenLines hne, (List.cons.inj ih).2]
      rfl

/-- A literal, a block whose language holds backquotes and the keyword, and a last line. -/
def pieces : List Segment :=
  [.literal "# Title\n".toList,
    .code ⟨"\x60execexec\x60".toList, ["--path".toList, "exec".toList], "echo a\n".toList⟩,
    .literal "\x60\x60\x60".toList]

theorem scan_pieces : Writable pieces ∧ scan (pieces.flatMap render) = pieces := by
  have hwritable : Writable pieces := by
    have hplain : IsPlain "# Title\n".toList ∧ IsPlain "\x60\x60\x60".toList := by
      unfold IsPlain
      decide +kernel
    have hlanguage : Text.IsToken "\x60execexec\x60".toList :=
      ⟨by decide, Text.eq_false_of_any (by decide)⟩
    refine .literal (by decide) hplain.1 (by decide)
      (.code ⟨hlanguage, ?_, by decide, by decide +kernel⟩ (.last (by decide) hplain.2))
    rintro option (_ | ⟨_, _ | ⟨_, _ | _⟩⟩) <;>
      exact ⟨by decide, Text.eq_false_of_any (by decide)⟩
  exact ⟨hwritable, scan_flatMap_render hwritable⟩

end Segment

end Weave
