import Weave.Text.Search
import Weave.Log

/-!
# Comments

A comment runs from `<!--` through the next `-->`. Comments are deleted from left to right; one that
is opened but never closed stays in place with everything after it.

## Main definitions

* `Weave.Comment.strip`: the document without its comments.
* `Weave.Comment.next?`: the first comment of a document.

## Main results

* `Weave.Comment.eq_append_of_next?`: a document is what stands around its first comment, with the
  comment between.
* `Weave.Comment.strip_of_next?_eq_none`: a document without a complete comment is unchanged.
-/

namespace Weave.Comment

/-- What opens a comment. -/
def openMarker : Text := ['<', '!', '-', '-']

/-- What closes a comment. -/
def closeMarker : Text := ['-', '-', '>']

/-- The first complete comment of a document: what stands before it, between its markers, and after
it. -/
def next? (document : Text) : Option (Text × Text × Text) :=
  match Text.breakOn? openMarker document with
  | none => none
  | some (before, rest) =>
    match Text.breakOn? closeMarker rest with
    | none => none
    | some (inside, after) => some (before, inside, after)

/-- A document is what stands around its first comment, with the comment between. -/
theorem eq_append_of_next? {document before inside after : Text}
    (h : next? document = some (before, inside, after)) :
    document = before ++ openMarker ++ inside ++ closeMarker ++ after := by
  unfold next? at h
  split at h
  · simp at h
  · rename_i b rest hopen
    split at h
    · simp at h
    · rename_i i a hclose
      simp only [Option.some.injEq, Prod.mk.injEq] at h
      obtain ⟨rfl, rfl, rfl⟩ := h
      rw [Text.eq_append_of_breakOn? hopen, Text.eq_append_of_breakOn? hclose]
      simp

/-- What follows the first comment is shorter than the document. -/
theorem length_lt_of_next? {document before inside after : Text}
    (h : next? document = some (before, inside, after)) : after.length < document.length := by
  have := congrArg List.length (eq_append_of_next? h)
  simp only [List.length_append, openMarker, closeMarker, List.length_cons] at this
  omega

/-- The document without its comments. -/
def strip (document : Text) : Text :=
  match _h : next? document with
  | none => document
  | some (before, _, after) => before ++ strip after
termination_by document.length
decreasing_by exact length_lt_of_next? _h

/-- A document without a complete comment is unchanged. -/
theorem strip_of_next?_eq_none {document : Text} (h : next? document = none) :
    strip document = document := by
  rw [strip]; split
  · rfl
  · rename_i hsome; rw [h] at hsome; simp at hsome

/-- The first comment of a document is dropped and the rest is treated alike. -/
theorem strip_of_next? {document before inside after : Text}
    (h : next? document = some (before, inside, after)) :
    strip document = before ++ strip after := by
  rw [strip]; split
  · rename_i hnone; rw [h] at hnone; simp at hnone
  · rename_i b i a hsome
    rw [h] at hsome
    simp only [Option.some.injEq, Prod.mk.injEq] at hsome
    obtain ⟨rfl, rfl, rfl⟩ := hsome
    rfl

/-- The warning about a comment that is never closed. -/
def unclosed : Event :=
  ⟨.warn, "comment opened without a closing `-->`, keeping the remaining text".toList, []⟩

/-- The warnings that go with `strip`: one if what is left of the document still opens a comment. -/
def warnings (document : Text) : List Event :=
  match _h : next? document with
  | none => if Text.holds openMarker document then [unclosed] else []
  | some (_, _, after) => warnings after
termination_by document.length
decreasing_by exact length_lt_of_next? _h

end Weave.Comment
