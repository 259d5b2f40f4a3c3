import Weave.Document.Heading
import Weave.Proofs.Listing

/-!
# Line ends

The lines of a document may end with a line feed or with a carriage return before it. Scanning does
not tell the two apart: a document in which every line feed has got a carriage return is scanned as
the same segments, in which every line feed has got one. What is made of a body, and of a document
in search of headings, is made of lines without their line ends, so it is the same as well.

## Main definitions

* `Weave.Text.withReturns`: a text with carriage returns before its line feeds.
* `Weave.CodeBlock.RunsLike`: two blocks for which the same commands are run.

## Main results

* `Weave.Segment.scan_withReturns`: scanning commutes with the change of the line ends.
* `Weave.Segment.runsLike_scan_withReturns`: a document is run the same with either line end.
-/

namespace Weave

/-! ### Texts with carriage returns -/

namespace Text

/-- The text with a carriage return before every line feed. -/
def withReturns (t : Text) : Text := t.flatMap fun c ↦ if c = '\n' then ['\r', '\n'] else [c]

theorem withReturns_append (s t : Text) : withReturns (s ++ t) = withReturns s ++ withReturns t :=
  List.flatMap_append

theorem withReturns_flatten (ls : List Text) :
    withReturns ls.flatten = (ls.map withReturns).flatten := by
  induction ls with
  | nil => rfl
  | cons line ls ih =>
    rw [List.flatten_cons, withReturns_append, ih, List.map_cons, List.flatten_cons]

/-- A text without line feeds gets no carriage returns. -/
theorem withReturns_eq_self {t : Text} (h : '\n' ∉ t) : withReturns t = t := by
  induction t with
  | nil => rfl
  | cons c cs ih =>
    obtain ⟨hc, hcs⟩ := not_or.mp (mt List.mem_cons.mpr h)
    rw [withReturns, List.flatMap_cons, if_neg (Ne.symm hc), ← withReturns, ih hcs,
      List.singleton_append]

theorem withReturns_append_lineFeed {t : Text} (h : '\n' ∉ t) :
    withReturns (t ++ ['\n']) = t ++ ['\r', '\n'] := by
  rw [withReturns_append, withReturns_eq_self h]
  rfl

/-- The lines of a text with carriage returns are its lines with carriage returns. -/
theorem brokenLines_withReturns (t : Text) :
    brokenLines (withReturns t) = (brokenLines t).map withReturns := by
  induction t with
  | nil => rfl
  | cons c cs ih =>
    by_cases hc : c = '\n'
    · subst hc
      have htext : withReturns ('\n' :: cs) = ['\r', '\n'] ++ withReturns cs := rfl
      rw [htext, brokenLines_append (by decide), ih]
      rfl
    · have htext : withReturns (c :: cs) = c :: withReturns cs := by
        rw [withReturns, List.flatMap_cons, if_neg hc]
        rfl
      rw [htext, brokenLines, brokenLines, if_neg hc, if_neg hc, ih]
      cases brokenLines cs with
      | nil => simp [withReturns, hc]
      | cons line rest => simp [withReturns, hc]

variable {t line : Text}

/-- What is removed at the end of a line includes its line end. -/
theorem trimEndWhere_withReturns {p : Char → Bool} (hp : ∀ c, isLineBreak c = true → p c = true)
    (h : line ∈ brokenLines t) : trimEndWhere p (withReturns line) = trimEndWhere p line := by
  obtain ⟨u, hu, rfl | rfl⟩ := exists_of_mem_brokenLines h
  · rw [withReturns_eq_self hu]
  · have hends : u ++ ['\r', '\n'] = u ++ ['\r'] ++ ['\n'] := by simp
    rw [withReturns_append_lineFeed hu, hends, trimEndWhere_append_of_pos (hp '\n' (by decide)),
      trimEndWhere_append_of_pos (hp '\r' (by decide)),
      trimEndWhere_append_of_pos (hp '\n' (by decide))]

/-- Without their line ends, the lines of a text are the same with carriage returns. -/
theorem lines_withReturns (h : '\r' ∉ t) : lines (withReturns t) = lines t := by
  rw [lines, lines, brokenLines_withReturns, List.map_map]
  refine List.map_congr_left fun line hline ↦ ?_
  have hreturn : '\r' ∉ line := fun hmem ↦ h (mem_of_mem_brokenLines hline hmem)
  rw [Function.comp_apply]
  obtain ⟨u, hu, rfl | rfl⟩ := exists_of_mem_brokenLines hline
  · rw [withReturns_eq_self hu]
  · rw [withReturns_append_lineFeed hu, withoutLineEnd_append_returnLineFeed,
      withoutLineEnd_append_lineFeed fun hmem ↦ hreturn (List.mem_append_left _ hmem)]

end Text

/-! ### Segments with carriage returns -/

namespace Fence

variable {t line : Text}

theorem opening?_withReturns (h : line ∈ Text.brokenLines t) :
    opening? (Text.withReturns line) = opening? line := by
  rw [opening?, opening?, Text.trimEndWhere_withReturns (fun _ hc ↦ hc) h]

theorem isClosing_withReturns (h : line ∈ Text.brokenLines t) :
    isClosing (Text.withReturns line) = isClosing line := by
  rw [isClosing, isClosing, Text.trimEnd, Text.trimEnd,
    Text.trimEndWhere_withReturns (fun _ ↦ Text.isBlank_of_isLineBreak) h]

end Fence

/-- The block with a carriage return before every line feed of its body. -/
def CodeBlock.withReturns (block : CodeBlock) : CodeBlock :=
  { block with body := Text.withReturns block.body }

namespace Segment

/-- The segment with a carriage return before every line feed. -/
def withReturns : Segment → Segment
  | .literal text => .literal (Text.withReturns text)
  | .code block => .code block.withReturns

theorem blocks_map_withReturns (segments : List Segment) :
    blocks (segments.map withReturns) = (blocks segments).map CodeBlock.withReturns := by
  induction segments with
  | nil => rfl
  | cons segment segments ih => cases segment <;> simp [blocks, withReturns, ih]

theorem ofLines_map_withReturns (ls : List Text) :
    ofLines (ls.map Text.withReturns) = (ofLines ls).map withReturns := by
  cases ls with
  | nil => rfl
  | cons line ls =>
    rw [ofLines, ofLines, if_neg (by simp), if_neg (by simp), ← Text.withReturns_flatten]
    rfl

/-- An opening fence that is never closed starts the last literal. -/
theorem scanLines_unclosed {line : Text} {rest : List Text}
    (hopens : (Fence.opening? line).isSome) (hopen : ∀ l ∈ rest, Fence.isClosing l = false)
    (before : List Text) :
    scanLines before (line :: rest) =
      ofLines before.reverse ++ [literal (line :: rest).flatten] := by
  obtain ⟨⟨language, options⟩, hline⟩ := Option.isSome_iff_exists.mp hopens
  rw [scanLines]
  simp only [hline]
  split
  · rfl
  · rename_i body after hsplit
    obtain ⟨closing, rfl, hcloses, -⟩ := eq_append_of_splitAtClosing? hsplit
    rw [hopen closing (by simp)] at hcloses
    cases hcloses

/-- The lines of a text are scanned as the same segments with carriage returns and without. -/
theorem scanLines_map_withReturns {t : Text} (before ls : List Text)
    (h : ∀ line ∈ ls, line ∈ Text.brokenLines t) :
    scanLines (before.map Text.withReturns) (ls.map Text.withReturns) =
      (scanLines before ls).map withReturns := by
  have hclosing {rest : List Text} (hrest : ∀ l ∈ rest, l ∈ Text.brokenLines t)
      (hopen : ∀ l ∈ rest, Fence.isClosing l = false) :
      ∀ l ∈ rest.map Text.withReturns, Fence.isClosing l = false :=
    List.forall_mem_map.mpr fun l hl ↦ (Fence.isClosing_withReturns (hrest l hl)).trans (hopen l hl)
  fun_induction scanLines before ls with
  | case1 before => rw [List.map_nil, scanLines, ← List.map_reverse, ofLines_map_withReturns]
  | case2 before line rest hline ih =>
    obtain ⟨hmem, hrest⟩ := List.forall_mem_cons.mp h
    rw [← ih hrest, List.map_cons, List.map_cons, ← List.singleton_append, scanLines_append]
    · rfl
    · simpa using (Fence.opening?_withReturns hmem).trans hline
  | case3 before line rest language options hline hsplit =>
    obtain ⟨hmem, hrest⟩ := List.forall_mem_cons.mp h
    have hopens : (Fence.opening? (Text.withReturns line)).isSome := by
      rw [Fence.opening?_withReturns hmem, hline]
      rfl
    rw [List.map_cons,
      scanLines_unclosed hopens (hclosing hrest (splitAtClosing?_eq_none hsplit)),
      ← List.map_reverse, ofLines_map_withReturns, ← List.map_cons, ← Text.withReturns_flatten,
      List.map_append]
    rfl
  | case4 before line rest language options hline body after hsplit ih =>
    obtain ⟨closing, rfl, hcloses, hopen⟩ := eq_append_of_splitAtClosing? hsplit
    simp only [List.forall_mem_cons, List.forall_mem_append] at h
    obtain ⟨hmem, hbody, hmemClosing, hafter⟩ := h
    rw [List.map_cons, List.map_append, List.map_cons,
      scanLines_fenced ((Fence.opening?_withReturns hmem).trans hline) (hclosing hbody hopen)
        ((Fence.isClosing_withReturns hmemClosing).trans hcloses),
      ← List.map_reverse, ofLines_map_withReturns, ← Text.withReturns_flatten, List.map_append,
      List.map_cons, ← ih hafter]
    rfl

/-- A document with carriage returns is scanned as its segments with carriage returns. -/
theorem scan_withReturns (document : Text) :
    scan (Text.withReturns document) = (scan document).map withReturns := by
  rw [scan, Text.brokenLines_withReturns]
  exact scanLines_map_withReturns (t := document) [] _ fun _ hline ↦ hline

/-- The body of a block is part of the lines that are divided. -/
theorem Divides.mem_of_mem_body {after : Bool} {ls : List Text} {segments : List Segment}
    (h : Divides after ls segments) {block : CodeBlock} (hblock : block ∈ blocks segments)
    {c : Char} (hc : c ∈ block.body) : c ∈ ls.flatten := by
  induction h with
  | nil => cases hblock
  | unclosed => cases hblock
  | literal _ _ _ ih =>
    rw [List.flatten_append]
    exact List.mem_append_right _ (ih hblock)
  | code _ _ _ _ _ ih =>
    rw [List.flatten_cons, List.flatten_append, List.flatten_cons]
    rcases List.mem_cons.mp hblock with rfl | hblock
    · exact List.mem_append_right _ (List.mem_append_left _ hc)
    · simp [ih hblock]

end Segment

/-! ### Running with either line end -/

/-- Two blocks with the same language and options, for which the shell is given the same command
line, and an interpreter, whatever its profile and the directory are, the same input line. -/
structure CodeBlock.RunsLike (block other : CodeBlock) : Prop where
  language : block.language = other.language
  options : block.options = other.options
  shell : ShellCommand.join block.body = ShellCommand.join other.body
  interpreter : ∀ (profile : Profile) (dir : Text),
    profile.commandLine dir block.body = profile.commandLine dir other.body

/-- A block without carriage returns is run as before when it gets them. -/
theorem CodeBlock.runsLike_withReturns {block : CodeBlock} (h : '\r' ∉ block.body) :
    block.withReturns.RunsLike block where
  language := rfl
  options := rfl
  shell := by
    rw [ShellCommand.join, ShellCommand.join, ShellCommand.commands, ShellCommand.commands,
      withReturns, Text.lines_withReturns h]
  interpreter profile dir := by
    rw [Profile.commandLine, Profile.commandLine, Profile.statements, Profile.statements,
      withReturns, Text.lines_withReturns h]

namespace Segment

/-- **Either line end.** A document without carriage returns has the same blocks with a carriage
return before every line feed: pair by pair, they have the same language and options, and the same
commands are run for them. It has the same headings, too. -/
theorem runsLike_scan_withReturns {document : Text} (h : '\r' ∉ document) :
    List.Forall₂ CodeBlock.RunsLike (blocks (scan (Text.withReturns document)))
      (blocks (scan document)) ∧
    Heading.find (Text.withReturns document) = Heading.find document := by
  constructor
  · rw [scan_withReturns, blocks_map_withReturns, List.forall₂_map_left_iff]
    refine List.forall₂_same.mpr fun block hblock ↦ CodeBlock.runsLike_withReturns fun hmem ↦ h ?_
    rw [← Text.flatten_brokenLines document]
    exact (divides_scan document).mem_of_mem_body hblock hmem
  · rw [Heading.find, Heading.find, Text.lines_withReturns h]

/-- A document with a block for an interpreter and one for the shell. -/
def mixed : Text :=
  "# a\n```octave exec --path d\nx = 1 % one\n\ny\n```\n```shexec\nls\n```\n".toList

/-- The blocks and the headings of a document with either line end. -/
theorem runsLike_mixed :
    '\r' ∉ mixed ∧ (blocks (scan (Text.withReturns mixed))).map CodeBlock.body =
      ["x = 1 % one\r\n\r\ny\r\n".toList, "ls\r\n".toList] ∧
    List.Forall₂ CodeBlock.RunsLike (blocks (scan (Text.withReturns mixed))) (blocks (scan mixed)) ∧
    Heading.find (Text.withReturns mixed) = Heading.find mixed :=
  ⟨by decide +kernel, by decide +kernel, runsLike_scan_withReturns (by decide +kernel)⟩

end Segment

end Weave
