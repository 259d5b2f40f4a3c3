import Weave.Document.Segment
import Mathlib.Data.List.Forall2

/-!
# Segments cover their document

Scanning divides the lines of a document among its segments. Each segment has a region of the
document, and the regions stand one after the other and make up the whole document: the region of a
literal is its text, and that of a block is the opening line, the body and the closing line.

A literal holds no opening fence, unless it is the last segment and starts with an opening fence
that no later line closes. So two literals are adjacent only before such an unclosed tail.

## Main definitions

* `Weave.Segment.Region`: the region of a segment.
* `Weave.Segment.IsPlain`, `Weave.Segment.IsUnclosed`: the two kinds of literal text.
* `Weave.Segment.Divides`: the divisions of lines among segments.

## Main results

* `Weave.Segment.divides_scanLines`: what the scan of some lines divides.
* `Weave.Segment.Divides.brokenLines_flatMap`: the lines of segments that are written.
* `Weave.Segment.scan_covers`: the segments of a document cover it.
-/

namespace Weave.Segment

/-- A text that is one line. -/
def IsLine (t : Text) : Prop := Text.brokenLines t = [t]

/-- Text without an opening fence. -/
def IsPlain (t : Text) : Prop := ∀ line ∈ Text.brokenLines t, Fence.opening? line = none

/-- Text that starts with an opening fence after which no closing fence comes. -/
def IsUnclosed (t : Text) : Prop :=
  ∃ line rest, Text.brokenLines t = line :: rest ∧ (Fence.opening? line).isSome ∧
    ∀ l ∈ rest, Fence.isClosing l = false

/-- The text is the part of a document that a segment comes from. -/
inductive Region : Segment → Text → Prop
  | literal {text : Text} (h : text ≠ []) : Region (.literal text) text
  | code {language body opening closing : Text} {options : List Text}
      (hopening : IsLine opening) (hends : Text.endsLine opening = true)
      (hopens : Fence.opening? opening = some (language, options))
      (hbody : Text.endsLine body = true)
      (hopen : ∀ line ∈ Text.brokenLines body, Fence.isClosing line = false)
      (hclosing : IsLine closing) (hcloses : Fence.isClosing closing = true) :
      Region (.code ⟨language, options, body⟩) (opening ++ body ++ closing)

/-! ### Looking for the closing fence -/

/-- What is found are the lines before the first closing fence and those after it. -/
theorem eq_append_of_splitAtClosing? {ls body after : List Text}
    (h : splitAtClosing? ls = some (body, after)) :
    ∃ closing, ls = body ++ closing :: after ∧ Fence.isClosing closing = true ∧
      ∀ line ∈ body, Fence.isClosing line = false := by
  induction ls generalizing body with
  | nil => simp [splitAtClosing?] at h
  | cons line rest ih =>
    rw [splitAtClosing?] at h
    by_cases hline : Fence.isClosing line = true
    · rw [if_pos hline, Option.some.injEq, Prod.mk.injEq] at h
      obtain ⟨rfl, rfl⟩ := h
      exact ⟨line, rfl, hline, by simp⟩
    · rw [if_neg hline, Option.map_eq_some_iff] at h
      obtain ⟨⟨b, a⟩, hba, heq⟩ := h
      obtain ⟨rfl, rfl⟩ := Prod.mk.inj heq
      obtain ⟨closing, rfl, hcloses, hb⟩ := ih hba
      refine ⟨closing, rfl, hcloses, ?_⟩
      rintro l (_ | ⟨_, hl⟩)
      · simpa using hline
      · exact hb l hl

/-- Nothing is found in lines none of which is a closing fence. -/
theorem splitAtClosing?_eq_none {ls : List Text} (h : splitAtClosing? ls = none) :
    ∀ line ∈ ls, Fence.isClosing line = false := by
  induction ls with
  | nil => simp
  | cons line rest ih =>
    rw [splitAtClosing?] at h
    by_cases hline : Fence.isClosing line = true
    · simp [hline] at h
    · rw [if_neg hline, Option.map_eq_none_iff] at h
      rintro l (_ | ⟨_, hl⟩)
      · simpa using hline
      · exact ih h l hl

/-! ### Divisions of lines -/

/-- The lines are divided among the segments. The first argument says whether a literal stands
before them, after which another one comes only if it is an unclosed tail. -/
inductive Divides : Bool → List Text → List Segment → Prop
  | nil (after : Bool) : Divides after [] []
  | unclosed (after : Bool) {line : Text} {rest : List Text} (hopens : (Fence.opening? line).isSome)
      (hopen : ∀ l ∈ rest, Fence.isClosing l = false) :
      Divides after (line :: rest) [.literal (line :: rest).flatten]
  | literal {ls rest : List Text} {segments : List Segment} (hne : ls ≠ [])
      (hplain : ∀ line ∈ ls, Fence.opening? line = none) (hrest : Divides true rest segments) :
      Divides false (ls ++ rest) (.literal ls.flatten :: segments)
  | code (after : Bool) {opening closing language : Text} {options body rest : List Text}
      {segments : List Segment} (hopens : Fence.opening? opening = some (language, options))
      (hopen : ∀ line ∈ body, Fence.isClosing line = false)
      (hcloses : Fence.isClosing closing = true) (hrest : Divides false rest segments) :
      Divides after (opening :: (body ++ closing :: rest))
        (.code ⟨language, options, body.flatten⟩ :: segments)

/-- What may stand after a literal may stand elsewhere. -/
theorem Divides.anywhere {ls : List Text} {segments : List Segment}
    (h : Divides true ls segments) : Divides false ls segments := by
  cases h with
  | nil => exact .nil false
  | unclosed _ hopens hopen => exact .unclosed false hopens hopen
  | code _ hopens hopen hcloses hrest => exact .code false hopens hopen hcloses hrest

/-- Plain lines may be put before what may stand after a literal. -/
theorem Divides.ofLines_append {ls rest : List Text} {segments : List Segment}
    (hplain : ∀ line ∈ ls, Fence.opening? line = none) (h : Divides true rest segments) :
    Divides false (ls ++ rest) (ofLines ls ++ segments) := by
  rw [ofLines]
  by_cases hne : ls = []
  · rw [if_pos hne, hne]
    exact h.anywhere
  · rw [if_neg hne]
    exact .literal hne hplain h

/-- The scan divides the lines that it has passed and those that follow. -/
theorem divides_scanLines (before ls : List Text)
    (hplain : ∀ line ∈ before, Fence.opening? line = none) :
    Divides false (before.reverse ++ ls) (scanLines before ls) := by
  have hreverse : ∀ line ∈ before.reverse, Fence.opening? line = none :=
    fun line hline ↦ hplain line (List.mem_reverse.mp hline)
  fun_induction scanLines before ls with
  | case1 before => simpa using (Divides.nil true).ofLines_append hreverse
  | case2 before line rest hline ih =>
    have hplain' : ∀ l ∈ line :: before, Fence.opening? l = none := by
      rintro l (_ | ⟨_, hl⟩)
      · exact hline
      · exact hplain l hl
    have hdivides := ih hplain' fun l hl ↦ hplain' l (List.mem_reverse.mp hl)
    rwa [List.reverse_cons, List.append_assoc] at hdivides
  | case3 before line rest language options hline hsplit =>
    exact (Divides.unclosed true (by simp [hline])
      (splitAtClosing?_eq_none hsplit)).ofLines_append hreverse
  | case4 before line rest language options hline body after hsplit ih =>
    obtain ⟨closing, rfl, hcloses, hopen⟩ := eq_append_of_splitAtClosing? hsplit
    exact (Divides.code true hline hopen hcloses (ih (by simp) (by simp))).ofLines_append hreverse

/-- The scan of a document divides its lines. -/
theorem divides_scan (document : Text) :
    Divides false (Text.brokenLines document) (scan document) :=
  divides_scanLines [] _ (by simp)

/-! ### Regions -/

theorem Region.ne_nil {segment : Segment} {region : Text} (h : Region segment region) :
    region ≠ [] := by
  cases h with
  | literal hne => exact hne
  | code hopening =>
    rintro hnil
    rw [List.append_assoc, List.append_eq_nil_iff] at hnil
    rw [IsLine, hnil.1] at hopening
    simp at hopening

theorem Region.nil_notMem {segments : List Segment} {regions : List Text}
    (h : List.Forall₂ Region segments regions) : [] ∉ regions := by
  induction h with
  | nil => simp
  | cons hregion _ ih => simpa [ih] using hregion.ne_nil.symm

/-- A line of a text, and the lines before it and after it, as texts with lines of their own. -/
theorem brokenLines_middle {t line : Text} (ls : List Text) {rest : List Text}
    (h : Text.brokenLines t = ls ++ line :: rest) :
    IsLine line ∧ (rest ≠ [] → Text.endsLine line = true) ∧ Text.endsLine ls.flatten = true ∧
      Text.brokenLines ls.flatten = ls ∧ Text.brokenLines rest.flatten = rest := by
  have hright : Text.brokenLines (line :: rest).flatten = [line] ++ rest :=
    Text.brokenLines_flatten_right h
  refine ⟨?_, fun hrest ↦ ?_, Text.endsLine_flatten h (by simp),
    Text.brokenLines_flatten_left h, Text.brokenLines_flatten_right hright⟩
  · simpa [IsLine] using Text.brokenLines_flatten_left hright
  · simpa using Text.endsLine_flatten hright hrest

/-- Segments that are written so that literals stay as they are and blocks end their last line have
the lines that each of them has. -/
theorem Divides.brokenLines_flatMap {after : Bool} {ls : List Text} {segments : List Segment}
    {shown : Segment → Text} (hliteral : ∀ text, shown (.literal text) = text)
    (hcode : ∀ block, Text.endsLine (shown (.code block)) = true) (h : Divides after ls segments)
    (hls : Text.brokenLines ls.flatten = ls) :
    Text.brokenLines (segments.flatMap shown) =
      segments.flatMap fun segment ↦ Text.brokenLines (shown segment) := by
  induction h with
  | nil => rfl
  | unclosed => simp
  | @literal ls rest segments _ _ hrest ih =>
    have hends : rest ≠ [] → Text.endsLine (shown (.literal ls.flatten)) = true := by
      rw [hliteral]
      exact Text.endsLine_flatten hls
    rw [List.flatMap_cons, List.flatMap_cons, ← ih (Text.brokenLines_flatten_right hls)]
    cases hrest with
    | nil => simp
    | unclosed => exact Text.brokenLines_append (hends (by simp)) _
    | code => exact Text.brokenLines_append (hends (by simp)) _
  | code _ _ _ _ _ ih =>
    obtain ⟨-, -, -, -, htail⟩ := brokenLines_middle [] hls
    obtain ⟨-, -, -, -, hrest⟩ := brokenLines_middle _ htail
    rw [List.flatMap_cons, List.flatMap_cons, Text.brokenLines_append (hcode _), ih hrest]

/-- The segments among which the lines of a text are divided have regions that consist of these
lines. -/
theorem Divides.exists_regions {after : Bool} {ls : List Text} {segments : List Segment}
    (h : Divides after ls segments) (hls : Text.brokenLines ls.flatten = ls) :
    ∃ regions, regions.flatMap Text.brokenLines = ls ∧ List.Forall₂ Region segments regions := by
  induction h with
  | nil => exact ⟨[], rfl, .nil⟩
  | @unclosed _ line rest =>
    refine ⟨[(line :: rest).flatten], by simpa using hls, .cons (.literal fun hnil ↦ ?_) .nil⟩
    rw [hnil] at hls
    cases hls
  | @literal ls rest segments hne _ _ ih =>
    obtain ⟨regions, hlines, hregions⟩ := ih (Text.brokenLines_flatten_right hls)
    have hleft : Text.brokenLines ls.flatten = ls := Text.brokenLines_flatten_left hls
    refine ⟨ls.flatten :: regions, by rw [List.flatMap_cons, hleft, hlines],
      .cons (.literal fun hnil ↦ ?_) hregions⟩
    rw [hnil] at hleft
    exact hne hleft.symm
  | @code _ opening closing language options body rest segments hopens hopen hcloses _ ih =>
    obtain ⟨hopening, hends, -, -, htail⟩ := brokenLines_middle [] hls
    obtain ⟨hclosing, -, hbody, hbodyLines, hrest⟩ := brokenLines_middle _ htail
    obtain ⟨regions, hlines, hregions⟩ := ih hrest
    have hregion : Region (.code ⟨language, options, body.flatten⟩)
        (opening ++ body.flatten ++ closing) :=
      .code hopening (hends (by simp)) hopens hbody (hbodyLines.symm ▸ hopen) hclosing hcloses
    refine ⟨_, ?_, .cons hregion hregions⟩
    rw [List.flatMap_cons, hlines, List.append_assoc, Text.brokenLines_append (hends (by simp)),
      Text.brokenLines_append hbody, hopening, hbodyLines, hclosing]
    simp

/-- A literal is plain, or it is an unclosed tail and the last segment. -/
theorem Divides.literal_cases {after : Bool} {ls : List Text} {segments : List Segment}
    (h : Divides after ls segments) (hls : Text.brokenLines ls.flatten = ls)
    {before rest : List Segment} {text : Text} (heq : segments = before ++ .literal text :: rest) :
    IsPlain text ∨ IsUnclosed text ∧ rest = [] := by
  induction h generalizing before with
  | nil => simp at heq
  | @unclosed _ line more hopens hopen =>
    cases before with
    | nil =>
      rw [List.nil_append, List.cons.injEq, Segment.literal.injEq] at heq
      exact .inr ⟨⟨line, more, heq.1 ▸ hls, hopens, hopen⟩, heq.2.symm⟩
    | cons => simp at heq
  | @literal ls more segments _ hplain _ ih =>
    cases before with
    | nil =>
      rw [List.nil_append, List.cons.injEq, Segment.literal.injEq] at heq
      refine .inl ?_
      rwa [IsPlain, ← heq.1, Text.brokenLines_flatten_left hls]
    | cons =>
      rw [List.cons_append, List.cons.injEq] at heq
      exact ih (Text.brokenLines_flatten_right hls) heq.2
  | code _ _ _ _ _ ih =>
    cases before with
    | nil => simp at heq
    | cons =>
      rw [List.cons_append, List.cons.injEq] at heq
      obtain ⟨-, -, -, -, htail⟩ := brokenLines_middle [] hls
      obtain ⟨-, -, -, -, hrest⟩ := brokenLines_middle _ htail
      exact ih hrest heq.2

/-- A literal that follows a literal is an unclosed tail and the last segment. -/
theorem Divides.adjacent {after : Bool} {ls : List Text} {segments : List Segment}
    (h : Divides after ls segments) (hls : Text.brokenLines ls.flatten = ls)
    {before rest : List Segment} {text next : Text}
    (heq : segments = before ++ .literal text :: .literal next :: rest) :
    IsUnclosed next ∧ rest = [] := by
  induction h generalizing before with
  | nil => simp at heq
  | unclosed => cases before <;> simp at heq
  | literal _ _ hrest ih =>
    have hright := Text.brokenLines_flatten_right hls
    cases before with
    | nil =>
      rw [List.nil_append, List.cons.injEq] at heq
      obtain ⟨-, rfl⟩ := heq
      cases hrest with
      | unclosed _ hopens hopen => exact ⟨⟨_, _, hright, hopens, hopen⟩, rfl⟩
    | cons =>
      rw [List.cons_append, List.cons.injEq] at heq
      exact ih hright heq.2
  | code _ _ _ _ _ ih =>
    cases before with
    | nil => simp at heq
    | cons =>
      rw [List.cons_append, List.cons.injEq] at heq
      obtain ⟨-, -, -, -, htail⟩ := brokenLines_middle [] hls
      obtain ⟨-, -, -, -, hrest⟩ := brokenLines_middle _ htail
      exact ih hrest heq.2

/-- **The segments of a document cover it.** The document is made up of one region for each segment,
each of which consists of whole lines; a literal holds an opening fence only if it is an unclosed
tail; two literals are adjacent only if the second one is. -/
theorem scan_covers (document : Text) :
    (∃ regions : List Text,
      regions.flatten = document ∧
      regions.flatMap Text.brokenLines = Text.brokenLines document ∧
      [] ∉ regions ∧
      List.Forall₂ Region (scan document) regions) ∧
    (∀ before text after, scan document = before ++ .literal text :: after →
      IsPlain text ∨ IsUnclosed text ∧ after = []) ∧
    ∀ before text next after, scan document = before ++ .literal text :: .literal next :: after →
      IsUnclosed next ∧ after = [] := by
  have hdivides : Divides false (Text.brokenLines document) (scan document) :=
    divides_scanLines [] _ (by simp)
  have hls : Text.brokenLines (Text.brokenLines document).flatten = Text.brokenLines document := by
    rw [Text.flatten_brokenLines]
  refine ⟨?_, fun before text after ↦ hdivides.literal_cases hls,
    fun before text next after ↦ hdivides.adjacent hls⟩
  obtain ⟨regions, hlines, hregions⟩ := hdivides.exists_regions hls
  refine ⟨regions, ?_, hlines, Region.nil_notMem hregions, hregions⟩
  rw [← Text.flatten_brokenLines document, ← hlines, Text.flatten_flatMap_brokenLines]

end Weave.Segment
