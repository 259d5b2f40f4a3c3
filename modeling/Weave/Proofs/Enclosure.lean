import Weave.Proofs.Listing
import Weave.Proofs.Unended

/-!
# Enclosures

A block is shown between fences: its source behind a line with its language, and its result behind a
line of backquotes. The body of a block holds no closing fence, so the source is always read back
from its fences. A result is written out as it is: it is read back exactly if none of its lines is a
closing fence.

## Main definitions

* `Weave.Fence.enclosed?`: what is read back between fences.
* `Weave.Fence.Encloses`: a line and the closing fence of a text enclose a part of it.

## Main results

* `Weave.Fence.enclosed?_append_iff`: which texts are read back from between fences.
* `Weave.CodeRunner.renderBlock_encloses`: what the fences of a shown block enclose.
-/

namespace Weave

namespace Fence

/-! ### Reading back -/

/-- The closing fence as it is written. -/
def closingLine : Text := ticks ++ ['\n']

theorem isClosing_closingLine : isClosing closingLine = true := by decide

/-- What stands before the first closing fence of a text and what stands behind it. -/
def enclosed? (t : Text) : Option (Text × Text) :=
  (Segment.splitAtClosing? (Text.brokenLines t)).map fun (inside, after) ↦
    (inside.flatten, after.flatten)

/-- A text that ends its last line is read back from before a closing fence exactly if none of its
lines is one. -/
theorem enclosed?_append_iff {inside : Text} (hends : Text.endsLine inside = true) (after : Text) :
    enclosed? (inside ++ closingLine ++ after) = some (inside, after) ↔
      ∀ line ∈ Text.brokenLines inside, isClosing line = false := by
  have hlines : Text.brokenLines (inside ++ closingLine ++ after) =
      Text.brokenLines inside ++ closingLine :: Text.brokenLines after := by
    rw [List.append_assoc, Text.brokenLines_append hends, Text.brokenLines_append (by decide)]
    rfl
  rw [enclosed?, hlines]
  constructor
  · intro henclosed
    simp only [Option.map_eq_some_iff, Prod.mk.injEq] at henclosed
    obtain ⟨⟨ls, rest⟩, hsplit, rfl, -⟩ := henclosed
    obtain ⟨closing, hclosing, -, hopen⟩ := Segment.eq_append_of_splitAtClosing? hsplit
    rwa [Text.brokenLines_flatten_left (hlines.trans hclosing)]
  · intro hopen
    rw [Segment.splitAtClosing?_append _ hopen isClosing_closingLine, Option.map_some]
    dsimp only
    rw [Text.flatten_brokenLines, Text.flatten_brokenLines]

theorem isClosing_append_lineFeed (line : Text) :
    isClosing (line ++ ['\n']) = isClosing line := by
  rw [isClosing, isClosing, Text.trimEnd, Text.trimEnd,
    Text.trimEndWhere_append_of_pos (by decide)]

/-- A line feed at the end of a text makes no closing fence and undoes none. -/
theorem forall_isClosing_append_lineFeed (t : Text) :
    (∀ line ∈ Text.brokenLines (t ++ ['\n']), isClosing line = false) ↔
      ∀ line ∈ Text.brokenLines t, isClosing line = false := by
  obtain ⟨ls, rest, rfl, -, hrest⟩ := Text.exists_lines t
  have hends : Text.endsLine (ls.flatMap (· ++ ['\n']) ++ []) = true :=
    (Text.endsLine_flatMap_append_iff List.not_mem_nil).mpr rfl
  rw [List.append_nil] at hends
  rw [List.append_assoc, Text.brokenLines_append hends, Text.brokenLines_append hends,
    List.forall_mem_append, List.forall_mem_append, Text.brokenLines_append_lineFeed hrest,
    List.forall_mem_singleton, isClosing_append_lineFeed]
  by_cases hne : rest = []
  · have hclosing : isClosing [] = false := by decide
    simp [hne, hclosing]
  · rw [Text.brokenLines_of_lineFeed_notMem hrest hne, List.forall_mem_singleton]

/-- In a shown text, the line `opening` behind `front` is followed by `inside`, a closing fence and
`after`, and that fence is the first one behind the line. -/
structure Encloses (shown front opening inside after : Text) : Prop where
  written : shown = front ++ opening ++ (inside ++ closingLine ++ after)
  endsLine : Text.endsLine front = true
  isLine : Segment.IsLine opening
  endsOpening : Text.endsLine opening = true
  enclosed : enclosed? (inside ++ closingLine ++ after) = some (inside, after)

end Fence

/-! ### The bodies of blocks -/

namespace Segment

/-- The body of a block ends its last line, and no line of it is a closing fence. -/
theorem Divides.body_of_mem {after : Bool} {ls : List Text} {segments : List Segment}
    (h : Divides after ls segments) (hls : Text.brokenLines ls.flatten = ls) :
    ∀ block ∈ blocks segments, Text.endsLine block.body = true ∧
      ∀ line ∈ Text.brokenLines block.body, Fence.isClosing line = false := by
  induction h with
  | nil => exact nofun
  | unclosed => exact nofun
  | literal _ _ _ ih => exact ih (Text.brokenLines_flatten_right hls)
  | code _ _ hopen _ _ ih =>
    obtain ⟨-, -, -, -, htail⟩ := brokenLines_middle [] hls
    obtain ⟨-, -, hbody, hbodyLines, hrest⟩ := brokenLines_middle _ htail
    exact List.forall_mem_cons.mpr ⟨⟨hbody, hbodyLines.symm ▸ hopen⟩, ih hrest⟩

end Segment

/-! ### Shown blocks -/

namespace CodeRunner

open Fence

variable {block : CodeBlock} {options : FenceOptions}

/-- The line before the source of a shown block. -/
def sourceLine (block : CodeBlock) : Text := ticks ++ block.language ++ ['\n']

theorem endsLine_shownSource : Text.endsLine (shownSource options block) = true := by
  unfold shownSource
  split
  · rfl
  · exact Text.endsLine_append (by simp)

/-- The fences of a shown source enclose the body. -/
theorem shownSource_encloses {document : Text}
    (hblock : block ∈ Segment.blocks (Segment.scan document)) (hshown : options.noCode = false)
    (rest : Text) :
    Encloses (shownSource options block ++ rest) [] (sourceLine block) block.body
      ('\n' :: rest) := by
  have hdivides := Segment.divides_scan document
  have htoken := hdivides.isToken_language block hblock
  obtain ⟨hbody, hopen⟩ := hdivides.body_of_mem (by rw [Text.flatten_brokenLines]) block hblock
  have hfeed : '\n' ∉ ticks ++ block.language := fun hmem ↦ by
    rcases List.mem_append.mp hmem with hmem | hmem
    · exact absurd hmem (by decide)
    · exact absurd (htoken.isBlank_eq_false _ hmem) (by decide)
  refine ⟨?_, rfl, Text.brokenLines_append_lineFeed hfeed, Text.endsLine_append_lineFeed _,
    (enclosed?_append_iff hbody _).mpr hopen⟩
  simp [shownSource, hshown, renderSource, sourceLine, closingLine]

/-- The fences of a shown result enclose the result exactly if none of its lines is a closing
fence. -/
theorem shownResult_encloses_iff (hshown : options.noEcho = false) (hfenced : options.raw = false)
    (result : Text) :
    Encloses (shownSource options block ++ shownResult options result) (shownSource options block)
        closingLine (result ++ ['\n']) [] ↔
      ∀ line ∈ Text.brokenLines result, isClosing line = false := by
  have hiff := enclosed?_append_iff (Text.endsLine_append_lineFeed result) []
  rw [forall_isClosing_append_lineFeed] at hiff
  rw [← hiff]
  refine ⟨Encloses.enclosed, fun henclosed ↦
    ⟨?_, endsLine_shownSource, rfl, rfl, henclosed⟩⟩
  simp [shownResult, hshown, hfenced, renderResult, closingLine]

/-- **Enclosures.** A block of a document is rendered to its source alone if nothing is run, and
else to its source and the text of its result. Whatever the result is, the fences of the source
enclose the body. The fences of a result that is shown with fences enclose the result and the line
feed behind it exactly if no line of the result is a closing fence. -/
theorem renderBlock_encloses (document : Text) (block : CodeBlock)
    (hblock : block ∈ Segment.blocks (Segment.scan document)) :
    (∀ {ω σ : Type} (host : Host ω σ) (runner next : CodeRunner σ) (scene later : Scene ω)
      (shown : Text),
      (runner.renderBlock host block).outcome scene = (.ok (shown, next), later) →
        if runner.noExec then shown = shownSource block.fenceOptions block
        else ∃ result mid,
          (runner.dispatch host block (runner.workingDir block.fenceOptions)).outcome
            (scene.logged (FenceOptions.warnings block.options)) = (.ok (result, next), mid) ∧
          shown = shownSource block.fenceOptions block ++
            shownResult block.fenceOptions (resultText result)) ∧
    (block.fenceOptions.noCode = false → ∀ rest,
      Encloses (shownSource block.fenceOptions block ++ rest) [] (sourceLine block) block.body
        ('\n' :: rest)) ∧
    (block.fenceOptions.noEcho = false → block.fenceOptions.raw = false → ∀ result,
      (Encloses
          (shownSource block.fenceOptions block ++ shownResult block.fenceOptions result)
          (shownSource block.fenceOptions block) closingLine (result ++ ['\n']) [] ↔
        ∀ line ∈ Text.brokenLines result, isClosing line = false)) := by
  refine ⟨fun host runner next scene later shown houtcome ↦ ?_, shownSource_encloses hblock,
    shownResult_encloses_iff⟩
  cases hexec : runner.noExec with
  | true =>
    rw [renderBlock, Task.outcome_bind, Task.outcome_emitAll] at houtcome
    simp only [hexec, if_true, Task.outcome_pure] at houtcome
    cases houtcome
    rfl
  | false =>
    rw [renderBlock_outcome hexec] at houtcome
    rcases hrun : (runner.dispatch host block (runner.workingDir block.fenceOptions)).outcome
      (scene.logged (FenceOptions.warnings block.options)) with ⟨answer, mid⟩
    rw [hrun] at houtcome
    cases answer with
    | error reason => cases houtcome
    | ok answered =>
      cases houtcome
      exact ⟨answered.1, mid, rfl, rfl⟩

/-! ### A result with a fence -/

/-- The host on which every command prints three backquotes. -/
def fencing : Host Unit Unit where
  clock _ := 0
  readText _ _ := .error []
  isDirectory _ _ := true
  runCommand _ _ _ _ := (some (.ok (Utf8.encode closingLine)), ())
  start _ _ _ _ := (.failed [], ())
  send _ _ _ _ := (some .closed, ())
  finish _ _ _ := (some .exited, ())
  kill _ _ := (some (), ())

/-- A block for the shell. -/
def fencer : CodeBlock := ⟨"sh".toList, [], "echo '\x60\x60\x60'\n".toList⟩

/-- The source of the block is read back. -/
theorem fencer_encloses : fencer ∈ Segment.blocks (Segment.scan (Segment.render (.code fencer))) ∧
    Encloses (shownSource fencer.fenceOptions fencer ++ []) [] (sourceLine fencer) fencer.body
      ['\n'] := by
  have hmem : fencer ∈ Segment.blocks (Segment.scan (Segment.render (.code fencer))) := by
    decide +kernel
  exact ⟨hmem, (renderBlock_encloses _ fencer hmem).2.1 (by decide) []⟩

/-- A result that is a closing fence ends the fence around it. -/
theorem fencer_escapes :
    fencer ∈ Segment.blocks (Segment.scan (Segment.render (.code fencer))) ∧
    ((CodeRunner.new (σ := Unit) {} {} ['/']).renderBlock fencing fencer).outcome
        { world := () } =
      (.ok (shownSource fencer.fenceOptions fencer ++
        shownResult fencer.fenceOptions closingLine, .new {} {} ['/']), { world := () }) ∧
    enclosed? (closingLine ++ ['\n'] ++ closingLine ++ []) = some ([], '\n' :: closingLine) ∧
    ¬Encloses (shownSource fencer.fenceOptions fencer ++
        shownResult fencer.fenceOptions closingLine)
      (shownSource fencer.fenceOptions fencer) closingLine (closingLine ++ ['\n']) [] := by
  refine ⟨by decide +kernel, ?_, by decide +kernel, fun hencloses ↦ ?_⟩
  · rfl
  · have hopen := (shownResult_encloses_iff (by decide) (by decide) closingLine).mp hencloses
    exact absurd (hopen closingLine (by decide +kernel)) (by decide)

end CodeRunner

end Weave
