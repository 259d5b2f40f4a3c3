import Weave.Document.Heading
import Weave.Proofs.WrittenSegments

/-!
# Headings and executable blocks

The headings of a document are looked for line by line: a line that starts like a fence changes over
between text and code, whatever fence it is. An executable block begins and ends with such a line,
so it hides its body and changes nothing for what follows it as long as its body does not change
over between the two as well. This file says exactly which blocks those are.

## Main definitions

* `Weave.Heading.after`: whether the lines behind some lines are code.
* `Weave.CodeBlock.IsSealed`: a block that shows no heading and hides none behind it.
* `Weave.Segment.outside`: a document without its executable blocks.

## Main results

* `Weave.Segment.collect_region_iff`: a block is sealed exactly if it makes no difference.
* `Weave.Segment.find_outside`: documents whose blocks make no difference to their headings.
* `Weave.Segment.find_outside_tildes`: a block that does.
-/

namespace Weave

/-! ### Lines of a document -/

/-- What a line loses at its end are line breaks. -/
theorem Text.exists_withoutLineEnd_append (line : Text) :
    ∃ tail, line = withoutLineEnd line ++ tail ∧ ∀ c ∈ tail, isLineBreak c = true := by
  have hline : line = line.reverse.reverse := line.reverse_reverse.symm
  unfold withoutLineEnd
  split
  · exact ⟨['\r', '\n'], by rw [hline, ‹line.reverse = _›]; simp, by simp [isLineBreak]⟩
  · exact ⟨['\n'], by rw [hline, ‹line.reverse = _›]; simp, by simp [isLineBreak]⟩
  · exact ⟨[], by simp, List.forall_mem_nil _⟩

namespace Heading

/-- Whether the lines that follow are code, after some lines. -/
def after (inFence : Bool) (ls : List Text) : Bool :=
  ls.foldl (fun inFence line ↦ inFence ^^ isFenceLine line) inFence

/-- What is code and what is not are exchanged. -/
theorem after_not (inFence : Bool) (ls : List Text) : after (!inFence) ls = !after inFence ls := by
  induction ls generalizing inFence with
  | nil => rfl
  | cons line rest ih =>
    rw [after, List.foldl_cons, ← after, Bool.not_xor, ih]
    rfl

/-- The headings of lines are those of the first ones and those of the others. -/
theorem collect_append (inFence : Bool) (ls rest : List Text) :
    collect inFence (ls ++ rest) = collect inFence ls ++ collect (after inFence ls) rest := by
  induction ls generalizing inFence with
  | nil => rfl
  | cons line ls ih =>
    rw [List.cons_append, collect, collect, after, List.foldl_cons, ← after]
    cases isFenceLine line with
    | true => simp [ih]
    | false => cases inFence <;> simp [ih]

/-- Lines between two fence lines are read the other way, and what follows as if those two were not
there. -/
theorem collect_fenced {opening closing : Text} (hopening : isFenceLine opening = true)
    (hclosing : isFenceLine closing = true) (inFence : Bool) (body rest : List Text) :
    collect inFence (opening :: (body ++ closing :: rest)) =
      collect (!inFence) body ++ collect (after inFence body) rest := by
  rw [collect, if_pos hopening, collect_append, collect, if_pos hclosing, after_not, Bool.not_not]

/-- A line that starts with three backquotes is a fence line without its line end. -/
theorem isFenceLine_ticks (rest : Text) :
    isFenceLine (Text.withoutLineEnd (Fence.ticks ++ rest)) = true := by
  obtain ⟨tail, hline, htail⟩ := Text.exists_withoutLineEnd_append (Fence.ticks ++ rest)
  rcases List.append_eq_append_iff.mp hline with ⟨more, heq, -⟩ | ⟨more, heq, rfl⟩
  · rw [heq]
    rfl
  · have hnone : ∀ c ∈ more, False := fun c hc ↦ by
      have hticks : Text.isLineBreak c = false :=
        Text.eq_false_of_any (t := Fence.ticks) (by decide) c (heq ▸ List.mem_append_right _ hc)
      have hbreak := htail c (List.mem_append_left _ hc)
      rw [hticks] at hbreak
      cases hbreak
    rw [List.eq_nil_iff_forall_not_mem.mpr hnone, List.append_nil] at heq
    rw [← heq]
    rfl

theorem isFenceLine_of_opening? {line : Text} (h : (Fence.opening? line).isSome) :
    isFenceLine (Text.withoutLineEnd line) = true := by
  unfold Fence.opening? at h
  cases hafter : Text.after? Fence.ticks (Text.trimEndWhere Text.isLineBreak line) with
  | none => simp [hafter] at h
  | some rest =>
    obtain ⟨tail, hline, -⟩ := Text.exists_trimEndWhere_append Text.isLineBreak line
    rw [hline, Text.after?_eq_some_iff.mp hafter, List.append_assoc]
    exact isFenceLine_ticks _

theorem isFenceLine_of_isClosing {line : Text} (h : Fence.isClosing line = true) :
    isFenceLine (Text.withoutLineEnd line) = true := by
  have htrim : Text.trimEnd line = Fence.ticks := by simpa [Fence.isClosing] using h
  obtain ⟨tail, hline, -⟩ := Text.exists_trimEndWhere_append Text.isBlank line
  rw [hline, ← Text.trimEnd, htrim]
  exact isFenceLine_ticks _

end Heading

/-! ### Blocks that make no difference -/

/-- Where it stands, behind lines that leave text or code, the block shows no heading, and its body
does not change over between the two. -/
structure CodeBlock.IsSealed (block : CodeBlock) (inFence : Bool) : Prop where
  silent : Heading.collect (!inFence) (Text.lines block.body) = []
  level : Heading.after inFence (Text.lines block.body) = inFence

/-- A block outside other fences whose body holds no fence line is sealed. -/
theorem CodeBlock.isSealed_of_unfenced {block : CodeBlock}
    (h : ∀ line ∈ Text.lines block.body, Heading.isFenceLine line = false) :
    block.IsSealed false := by
  generalize hlines : Text.lines block.body = ls at h
  have hls : Heading.collect true ls = [] ∧ Heading.after false ls = false := by
    clear hlines
    induction ls with
    | nil => exact ⟨rfl, rfl⟩
    | cons line rest ih =>
      obtain ⟨hline, hrest⟩ := List.forall_mem_cons.mp h
      rw [Heading.collect, Heading.after, List.foldl_cons, ← Heading.after, hline]
      exact ih hrest
  exact ⟨hlines ▸ hls.1, hlines ▸ hls.2⟩

namespace Segment

/-- Every block is sealed where it stands. -/
def AllSealed (inFence : Bool) : List Segment → Prop
  | [] => True
  | .literal text :: rest => AllSealed (Heading.after inFence (Text.lines text)) rest
  | .code block :: rest => block.IsSealed inFence ∧ AllSealed inFence rest

/-- What is left of a segment without the blocks. -/
def keptText : Segment → Text
  | .literal text => text
  | .code _ => []

/-- A document without the regions of its blocks. -/
def outside (document : Text) : Text := (scan document).flatMap keptText

variable {inFence : Bool} {block : CodeBlock} {region : Text}

/-- A document whose blocks are all sealed has the headings that it has without them. -/
theorem Divides.collect_outside {literal : Bool} {ls : List Text} {segments : List Segment}
    (h : Divides literal ls segments) (hls : Text.brokenLines ls.flatten = ls)
    (hsealed : AllSealed inFence segments) :
    Heading.collect inFence ((segments.flatMap fun segment ↦
        Text.brokenLines (keptText segment)).map Text.withoutLineEnd) =
      Heading.collect inFence (ls.map Text.withoutLineEnd) := by
  induction h generalizing inFence with
  | nil => rfl
  | unclosed => rw [List.flatMap_singleton, keptText, hls]
  | literal _ _ _ ih =>
    rw [AllSealed, Text.lines, Text.brokenLines_flatten_left hls] at hsealed
    rw [List.flatMap_cons, keptText, Text.brokenLines_flatten_left hls, List.map_append,
      List.map_append, Heading.collect_append, Heading.collect_append,
      ih (Text.brokenLines_flatten_right hls) hsealed]
  | code _ hopens _ hcloses _ ih =>
    obtain ⟨-, -, -, -, htail⟩ := brokenLines_middle [] hls
    obtain ⟨-, -, -, hbodyLines, hrest⟩ := brokenLines_middle _ htail
    obtain ⟨hblock, hsealed⟩ := hsealed
    have hsilent := hblock.silent
    have hlevel := hblock.level
    rw [Text.lines, hbodyLines] at hsilent hlevel
    rw [List.flatMap_cons, keptText, Text.brokenLines_nil, List.nil_append, ih hrest hsealed,
      List.map_cons, List.map_append, List.map_cons,
      Heading.collect_fenced (Heading.isFenceLine_of_opening? (by simp [hopens]))
        (Heading.isFenceLine_of_isClosing hcloses), hsilent, hlevel, List.nil_append]

/-- The lines of a block with those behind it: the opening fence, the body and the closing fence. -/
theorem Region.brokenLines_append (h : Region (.code block) region)
    (hends : Text.endsLine region = true) (rest : Text) :
    ∃ opening closing, Fence.opening? opening = some (block.language, block.options) ∧
      (∀ line ∈ Text.brokenLines block.body, Fence.isClosing line = false) ∧
      Fence.isClosing closing = true ∧ Text.brokenLines (region ++ rest) =
        opening :: (Text.brokenLines block.body ++ closing :: Text.brokenLines rest) := by
  cases h with
  | @code language body opening closing options hopening hendsOpening hopens hbody hopen hclosing
      hcloses =>
    have hne : closing ≠ [] := fun hnil ↦ by
      rw [hnil] at hcloses
      cases hcloses
    rw [Text.endsLine_append hne] at hends
    refine ⟨opening, closing, hopens, hopen, hcloses, ?_⟩
    rw [List.append_assoc, List.append_assoc, Text.brokenLines_append hendsOpening,
      Text.brokenLines_append hbody, Text.brokenLines_append hends, hopening, hclosing]
    rfl

/-- A block is sealed exactly if it makes no difference to the headings, whatever text stands behind
it. -/
theorem collect_region_iff (h : Region (.code block) region)
    (hends : Text.endsLine region = true) :
    block.IsSealed inFence ↔ ∀ tail, IsPlain tail →
      Heading.collect inFence (Text.lines (region ++ tail)) =
        Heading.collect inFence (Text.lines tail) := by
  have hregion (tail : Text) : Heading.collect inFence (Text.lines (region ++ tail)) =
      Heading.collect (!inFence) (Text.lines block.body) ++
        Heading.collect (Heading.after inFence (Text.lines block.body)) (Text.lines tail) := by
    obtain ⟨opening, closing, hopens, -, hcloses, hlines⟩ := h.brokenLines_append hends tail
    rw [Text.lines, hlines, List.map_cons, List.map_append, List.map_cons,
      Heading.collect_fenced (Heading.isFenceLine_of_opening? (by simp [hopens]))
        (Heading.isFenceLine_of_isClosing hcloses)]
    rfl
  constructor
  · rintro ⟨hsilent, hlevel⟩ tail -
    rw [hregion, hsilent, hlevel, List.nil_append]
  · intro hsame
    -- Nothing behind the block shows that it has no headings, and a heading behind it that what
    -- follows is read as before.
    have hnone := hsame [] (by simp [IsPlain])
    have hheading := hsame "# x".toList (by unfold IsPlain; decide +kernel)
    rw [hregion] at hnone hheading
    obtain ⟨hsilent, -⟩ := List.append_eq_nil_iff.mp hnone
    refine ⟨hsilent, ?_⟩
    rw [hsilent] at hheading
    revert hheading
    cases inFence <;> cases Heading.after _ (Text.lines block.body) <;> decide

/-- The scan of a block between two texts without an opening fence. -/
theorem scan_region (h : Region (.code block) region) (hends : Text.endsLine region = true)
    {before tail : Text} (hbefore : IsPlain before) (hbreak : Text.endsLine before = true)
    (htail : IsPlain tail) :
    scan (before ++ region ++ tail) =
      ofLines (Text.brokenLines before) ++ .code block :: ofLines (Text.brokenLines tail) := by
  obtain ⟨opening, closing, hopens, hopen, hcloses, hlines⟩ := h.brokenLines_append hends tail
  have hrest : scanLines [] (Text.brokenLines tail ++ []) = ofLines (Text.brokenLines tail) := by
    rw [scanLines_append htail, scanLines, List.append_nil, List.reverse_reverse]
  rw [List.append_nil] at hrest
  rw [scan, List.append_assoc, Text.brokenLines_append hbreak, hlines, scanLines_append hbefore,
    scanLines_fenced hopens hopen hcloses, hrest, Text.flatten_brokenLines, List.append_nil,
    List.reverse_reverse]

theorem flatMap_keptText_ofLines (text : Text) :
    (ofLines (Text.brokenLines text)).flatMap keptText = text := by
  by_cases h : text = []
  · rw [h]
    rfl
  · rw [ofLines_brokenLines h, List.flatMap_singleton, keptText]

/-- **Headings outside the blocks.** The document has the headings that it has without the regions
of its blocks if these are all sealed. A block between texts without an opening fence is sealed
exactly if that can be said of the document whatever the text behind it is. -/
theorem find_outside (document : Text) :
    (AllSealed false (scan document) →
      Heading.find (outside document) = Heading.find document) ∧
    ∀ (before region : Text) (block : CodeBlock), IsPlain before → Text.endsLine before = true →
      Region (.code block) region → Text.endsLine region = true →
      (block.IsSealed (Heading.after false (Text.lines before)) ↔ ∀ tail, IsPlain tail →
        Heading.find (outside (before ++ region ++ tail)) =
          Heading.find (before ++ region ++ tail)) := by
  constructor
  · intro hsealed
    have hdivides := divides_scan document
    have hls := congrArg Text.brokenLines (Text.flatten_brokenLines document)
    rw [Heading.find, Text.lines, outside,
      hdivides.brokenLines_flatMap (fun _ ↦ rfl) (fun _ ↦ rfl) hls,
      hdivides.collect_outside hls hsealed]
    rfl
  · intro before region block hbefore hbreak hregion hends
    rw [collect_region_iff hregion hends]
    refine forall₂_congr fun tail htail ↦ ?_
    have houtside : outside (before ++ region ++ tail) = before ++ tail := by
      rw [outside, scan_region hregion hends hbefore hbreak htail, List.flatMap_append,
        List.flatMap_cons, flatMap_keptText_ofLines, flatMap_keptText_ofLines]
      rfl
    have hfind (rest : Text) : Heading.find (before ++ rest) =
        Heading.collect false (Text.lines before) ++
          Heading.collect (Heading.after false (Text.lines before)) (Text.lines rest) := by
      rw [Heading.find, Text.lines, Text.brokenLines_append hbreak, List.map_append,
        Heading.collect_append]
      rfl
    rw [houtside, List.append_assoc, hfind, hfind, List.append_cancel_left_eq, eq_comm]

/-- Two headings with a block between them whose body holds a comment. -/
def commented : Text := "# a\n```sh exec\n# inside\n```\n# b\n".toList

/-- The headings around a block with a comment are those of the text around it. -/
theorem find_outside_commented : AllSealed false (scan commented) ∧
    outside commented = "# a\n# b\n".toList ∧
    Heading.find (outside commented) = Heading.find commented := by
  have hscan : scan commented = [.literal "# a\n".toList,
      .code ⟨"sh".toList, [], "# inside\n".toList⟩,
      .literal "# b\n".toList] := by
    decide +kernel
  have hsealed : AllSealed false (scan commented) := by
    rw [hscan]
    exact ⟨CodeBlock.isSealed_of_unfenced (by decide), trivial⟩
  exact ⟨hsealed, by decide +kernel, (find_outside commented).1 hsealed⟩

/-- A block whose body holds one fence line, and a heading behind it. -/
def interrupted : Text := "```sh exec\n~~~\n# inside\n```\n# outside\n".toList

/-- A block between two fence lines. -/
def enclosed : Text := "~~~\n```sh exec\n# inside\n```\n~~~\n".toList

/-- The first block shows a heading of its own and hides the one behind it, and the second one shows
its own. -/
theorem find_outside_tildes :
    (outside interrupted = "# outside\n".toList ∧
      Heading.find interrupted = [⟨1, "inside".toList⟩] ∧
      Heading.find (outside interrupted) = [⟨1, "outside".toList⟩]) ∧
    outside enclosed = "~~~\n~~~\n".toList ∧
      Heading.find enclosed = [⟨1, "inside".toList⟩] ∧ Heading.find (outside enclosed) = [] := by
  decide +kernel

end Segment

end Weave
