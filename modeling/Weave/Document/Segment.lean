import Weave.Document.Fence
import Weave.Text.Line

/-!
# Segments of a document

A document divides into executable blocks and the literal text around them. A block whose closing
fence never comes is literal text from its opening fence to the end of the document.

## Main definitions

* `Weave.CodeBlock`, `Weave.Segment`.
* `Weave.Segment.scan`: the segments of a document, in order.
* `Weave.Segment.render`: a segment written out.
-/

namespace Weave

/-- A fenced region marked for execution. -/
structure CodeBlock where
  /-- The language token of the opening fence. -/
  language : Text
  /-- The option tokens of the opening fence. -/
  options : List Text
  /-- The text between the fences, with its line ends. -/
  body : Text
  deriving Repr, DecidableEq

/-- What the option tokens of a block ask for. -/
def CodeBlock.fenceOptions (block : CodeBlock) : FenceOptions := .parse block.options

/-- A piece of a document. -/
inductive Segment where
  /-- Text outside every executable block. -/
  | literal (text : Text)
  /-- An executable block. -/
  | code (block : CodeBlock)
  deriving Repr, DecidableEq

namespace Segment

/-- The lines before the first closing fence and the lines after it. -/
def splitAtClosing? : List Text → Option (List Text × List Text)
  | [] => none
  | line :: rest =>
    if Fence.isClosing line then some ([], rest)
    else (splitAtClosing? rest).map fun (body, after) ↦ (line :: body, after)

/-- What follows a closing fence is shorter than what the fence was looked for in. -/
theorem length_lt_of_splitAtClosing? {ls body after : List Text}
    (h : splitAtClosing? ls = some (body, after)) : after.length < ls.length := by
  induction ls generalizing body with
  | nil => simp [splitAtClosing?] at h
  | cons line rest ih =>
    rw [splitAtClosing?] at h
    split at h
    · simp only [Option.some.injEq, Prod.mk.injEq] at h
      obtain ⟨_, rfl⟩ := h
      simp
    · simp only [Option.map_eq_some_iff, Prod.mk.injEq] at h
      obtain ⟨⟨b, a⟩, hba, _, rfl⟩ := h
      have : a.length < rest.length := ih hba
      simp only [List.length_cons]
      omega

/-- The literal segment of some lines; no lines make no segment. -/
def ofLines (ls : List Text) : List Segment := if ls = [] then [] else [literal ls.flatten]

/-- The segments of the lines that follow the literal lines `before`, which are in reverse order. -/
def scanLines (before : List Text) (ls : List Text) : List Segment :=
  match ls with
  | [] => ofLines before.reverse
  | line :: rest =>
    match Fence.opening? line with
    | none => scanLines (line :: before) rest
    | some (language, options) =>
      match _h : splitAtClosing? rest with
      | none => ofLines before.reverse ++ [literal (line :: rest).flatten]
      | some (body, after) =>
        ofLines before.reverse ++ code ⟨language, options, body.flatten⟩ :: scanLines [] after
termination_by ls.length
decreasing_by
  · simp
  · have := length_lt_of_splitAtClosing? _h
    simp only [List.length_cons]
    omega

/-- The segments of a document, in order. -/
def scan (document : Text) : List Segment := scanLines [] (Text.brokenLines document)

/-- The warning about an opening fence that is never closed. -/
def neverClosed (language : Text) : Event :=
  ⟨.warn, "execution fence is never closed, passing the rest of the document through".toList,
    [("language", language)]⟩

/-- The language of the opening fence that is never closed, if there is one. -/
def unclosedLanguage? (ls : List Text) : Option Text :=
  match ls with
  | [] => none
  | line :: rest =>
    match Fence.opening? line with
    | none => unclosedLanguage? rest
    | some (language, _) =>
      match _h : splitAtClosing? rest with
      | none => some language
      | some (_, after) => unclosedLanguage? after
termination_by ls.length
decreasing_by
  · simp
  · have := length_lt_of_splitAtClosing? _h
    simp only [List.length_cons]
    omega

/-- The warnings that go with `scan`. -/
def warnings (document : Text) : List Event :=
  ((unclosedLanguage? (Text.brokenLines document)).map neverClosed).toList

/-- A segment written out: a literal as its text, a block between an opening fence and a closing
fence. -/
def render : Segment → Text
  | literal text => text
  | code block =>
    Fence.ticks ++ block.language ++ Fence.keyword ++ block.options.flatMap (' ' :: ·) ++ ['\n'] ++
      block.body ++ Fence.ticks ++ ['\n']

end Segment

end Weave
