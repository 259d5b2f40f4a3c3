import Weave.Document.Comment
import Weave.Proofs.Occurrence

/-!
# Comments and the text around them

A document divides in one way only into its comments and the text around them: no opening marker
stands in front of a comment, back to the comment before, no closing marker stands inside of one,
and behind the last one the first opening marker has no closing one after it. Since neither marker
overlaps itself, the search finds these comments one after the other, and what is left when they are
deleted is the text around them.

## Main definitions

* `Weave.Comment.Passage`, `Weave.Comment.Decomposes`: the comments of a document and the text
  around them.

## Main results

* `Weave.Comment.next?_eq_some_iff`, `Weave.Comment.next?_eq_none_iff`: which comment is found
  first, and when there is none.
* `Weave.Comment.strip_decomposes`: a document decomposes in exactly one way, and the text around
  its comments is what is left of it.
-/

namespace Weave.Comment

/-! ### The first comment -/

/-- Neither marker overlaps itself, and so the search for one finds its first occurrence. -/
theorem breakOn?_openMarker {t before rest : Text} :
    Text.breakOn? openMarker t = some (before, rest) ↔
      t = before ++ openMarker ++ rest ∧ ¬openMarker <:+: before :=
  Text.breakOn?_eq_some_iff (by decide) (by decide)

theorem breakOn?_closeMarker {t before rest : Text} :
    Text.breakOn? closeMarker t = some (before, rest) ↔
      t = before ++ closeMarker ++ rest ∧ ¬closeMarker <:+: before :=
  Text.breakOn?_eq_some_iff (by decide) (by decide)

/-- The comment that is found has no opening marker before it and no closing marker inside. -/
theorem next?_eq_some_iff {document before inside after : Text} :
    next? document = some (before, inside, after) ↔
      document = before ++ openMarker ++ inside ++ closeMarker ++ after ∧
        ¬openMarker <:+: before ∧ ¬closeMarker <:+: inside := by
  constructor
  · intro h
    refine ⟨eq_append_of_next? h, ?_⟩
    unfold next? at h
    split at h
    · cases h
    · rename_i front rest hopen
      split at h
      · cases h
      · rename_i inner back hclose
        obtain ⟨rfl, rfl, rfl⟩ : front = before ∧ inner = inside ∧ back = after := by simpa using h
        exact ⟨(breakOn?_openMarker.mp hopen).2, (breakOn?_closeMarker.mp hclose).2⟩
  · rintro ⟨rfl, hbefore, hinside⟩
    have hopen : Text.breakOn? openMarker
        (before ++ openMarker ++ inside ++ closeMarker ++ after) =
          some (before, inside ++ closeMarker ++ after) :=
      breakOn?_openMarker.mpr ⟨by simp only [List.append_assoc], hbefore⟩
    have hclose : Text.breakOn? closeMarker (inside ++ closeMarker ++ after) =
        some (inside, after) := breakOn?_closeMarker.mpr ⟨rfl, hinside⟩
    simp only [next?, hopen, hclose]

/-- A text whose first opening marker, if there is one, has no closing marker after it. -/
def IsOpen (t : Text) : Prop :=
  ∀ before rest, t = before ++ openMarker ++ rest → ¬openMarker <:+: before →
    ¬closeMarker <:+: rest

theorem next?_eq_none_iff_isOpen {t : Text} : next? t = none ↔ IsOpen t := by
  constructor
  · rintro h before rest rfl hbefore ⟨inside, after, rfl⟩
    -- The first closing marker behind the opening one would end a comment.
    cases hclose : Text.breakOn? closeMarker (inside ++ closeMarker ++ after) with
    | none => exact Text.breakOn?_eq_none_iff.mp hclose (List.infix_append inside closeMarker after)
    | some found =>
      have hopen : Text.breakOn? openMarker
          (before ++ openMarker ++ (inside ++ closeMarker ++ after)) = some (before, _) :=
        breakOn?_openMarker.mpr ⟨rfl, hbefore⟩
      simp only [next?, hopen, hclose, reduceCtorEq] at h
  · intro h
    refine Option.eq_none_iff_forall_ne_some.mpr fun ⟨before, inside, after⟩ hsome ↦ ?_
    obtain ⟨htext, hbefore, -⟩ := next?_eq_some_iff.mp hsome
    refine h before (inside ++ closeMarker ++ after) ?_ hbefore
      (List.infix_append inside closeMarker after)
    rw [htext]
    simp only [List.append_assoc]

/-- No comment is found exactly if no opening marker has a closing one behind it. -/
theorem next?_eq_none_iff {document : Text} :
    next? document = none ↔ ∀ before inside after,
      document ≠ before ++ openMarker ++ inside ++ closeMarker ++ after := by
  constructor
  · rintro h before inside after rfl
    -- Behind the first opening marker there is still all that follows any other one.
    obtain ⟨first, more, hopen⟩ :=
      Text.breakOn?_middle before openMarker (inside ++ closeMarker ++ after)
    obtain ⟨inner, last, hclose⟩ := Text.breakOn?_middle (more ++ inside) closeMarker after
    simp only [List.append_assoc] at h hopen hclose
    simp [next?, hopen, hclose] at h
  · intro h
    refine Option.eq_none_iff_forall_ne_some.mpr fun found hfound ↦ ?_
    exact h _ _ _ (eq_append_of_next? hfound)

/-! ### All comments -/

/-- A comment with the text in front of it, back to the comment before. -/
structure Passage where
  gap : Text
  inside : Text

/-- The text of a comment and of what stands in front of it. -/
def Passage.text (passage : Passage) : Text :=
  passage.gap ++ openMarker ++ passage.inside ++ closeMarker

theorem flatMap_text_cons (passage : Passage) (passages : List Passage) (final : Text) :
    (passage :: passages).flatMap Passage.text ++ final =
      passage.gap ++ openMarker ++ passage.inside ++ closeMarker ++
        (passages.flatMap Passage.text ++ final) := by
  rw [List.flatMap_cons, List.append_assoc, Passage.text]

/-- The comments of a document, each with the text in front of it, and the text behind the last
one. -/
structure Decomposes (document : Text) (passages : List Passage) (final : Text) : Prop where
  text : document = passages.flatMap Passage.text ++ final
  gap : ∀ passage ∈ passages, ¬openMarker <:+: passage.gap
  inside : ∀ passage ∈ passages, ¬closeMarker <:+: passage.inside
  final : IsOpen final

variable {document final : Text} {passages : List Passage}

theorem decomposes_nil_iff :
    Decomposes document [] final ↔ final = document ∧ next? document = none := by
  rw [next?_eq_none_iff_isOpen]
  constructor
  · rintro ⟨rfl, -, -, hfinal⟩
    exact ⟨rfl, hfinal⟩
  · rintro ⟨rfl, hfinal⟩
    exact ⟨rfl, List.forall_mem_nil _, List.forall_mem_nil _, hfinal⟩

/-- The first comment of a decomposition is the one that is found, and what follows it decomposes
into the others. -/
theorem decomposes_cons_iff {passage : Passage} :
    Decomposes document (passage :: passages) final ↔ ∃ rest,
      next? document = some (passage.gap, passage.inside, rest) ∧
        Decomposes rest passages final := by
  constructor
  · rintro ⟨htext, hgap, hinside, hfinal⟩
    obtain ⟨hgap, hgaps⟩ := List.forall_mem_cons.mp hgap
    obtain ⟨hinside, hinsides⟩ := List.forall_mem_cons.mp hinside
    refine ⟨passages.flatMap Passage.text ++ final, next?_eq_some_iff.mpr ⟨?_, hgap, hinside⟩,
      rfl, hgaps, hinsides, hfinal⟩
    rw [htext, flatMap_text_cons]
  · rintro ⟨rest, hnext, rfl, hgaps, hinsides, hfinal⟩
    obtain ⟨htext, hgap, hinside⟩ := next?_eq_some_iff.mp hnext
    refine ⟨?_, List.forall_mem_cons.mpr ⟨hgap, hgaps⟩,
      List.forall_mem_cons.mpr ⟨hinside, hinsides⟩, hfinal⟩
    rw [htext, flatMap_text_cons]

theorem exists_decomposes (document : Text) :
    ∃ passages final, Decomposes document passages final := by
  cases hnext : next? document with
  | none => exact ⟨[], document, decomposes_nil_iff.mpr ⟨rfl, hnext⟩⟩
  | some found =>
    obtain ⟨gap, inside, rest⟩ := found
    obtain ⟨passages, final, hrest⟩ := exists_decomposes rest
    exact ⟨⟨gap, inside⟩ :: passages, final, decomposes_cons_iff.mpr ⟨rest, hnext, hrest⟩⟩
termination_by document.length
decreasing_by exact length_lt_of_next? hnext

/-- Two decompositions of a document are the same. -/
theorem Decomposes.unique {final' : Text} {passages' : List Passage}
    (h : Decomposes document passages final) (h' : Decomposes document passages' final') :
    passages' = passages ∧ final' = final := by
  induction passages generalizing document passages' with
  | nil =>
    obtain ⟨rfl, hnone⟩ := decomposes_nil_iff.mp h
    cases passages' with
    | nil => exact ⟨rfl, (decomposes_nil_iff.mp h').1⟩
    | cons passage' passages' =>
      obtain ⟨rest, hsome, -⟩ := decomposes_cons_iff.mp h'
      cases hnone.symm.trans hsome
  | cons passage passages ih =>
    obtain ⟨rest, hsome, hrest⟩ := decomposes_cons_iff.mp h
    cases passages' with
    | nil => cases hsome.symm.trans (decomposes_nil_iff.mp h').2
    | cons passage' passages' =>
      obtain ⟨rest', hsome', hrest'⟩ := decomposes_cons_iff.mp h'
      obtain ⟨hgap, hinside, rfl⟩ : passage.gap = passage'.gap ∧ passage.inside = passage'.inside ∧
          rest = rest' := by
        simpa using hsome.symm.trans hsome'
      obtain ⟨rfl, hfinal⟩ := ih hrest hrest'
      cases passage
      cases passage'
      cases hgap
      cases hinside
      exact ⟨rfl, hfinal⟩

/-- What is left of a document is the text around its comments. -/
theorem Decomposes.strip_eq (h : Decomposes document passages final) :
    strip document = passages.flatMap Passage.gap ++ final := by
  induction passages generalizing document with
  | nil =>
    obtain ⟨rfl, hnone⟩ := decomposes_nil_iff.mp h
    exact strip_of_next?_eq_none hnone
  | cons passage passages ih =>
    obtain ⟨rest, hsome, hrest⟩ := decomposes_cons_iff.mp h
    rw [strip_of_next? hsome, ih hrest, List.flatMap_cons, List.append_assoc]

/-- **Comments.** A document decomposes in exactly one way into its comments, taken from the left,
and the text around them, and the comments are what is deleted. -/
theorem strip_decomposes (document : Text) :
    (∃! parts : List Passage × Text, Decomposes document parts.1 parts.2) ∧
      ∀ passages final, Decomposes document passages final →
        strip document = passages.flatMap Passage.gap ++ final := by
  refine ⟨?_, fun passages final h ↦ h.strip_eq⟩
  obtain ⟨passages, final, h⟩ := exists_decomposes document
  refine ⟨(passages, final), h, fun parts hparts ↦ ?_⟩
  obtain ⟨hpassages, hfinal⟩ := h.unique hparts
  exact Prod.ext hpassages hfinal

/-- The closing marker may not share its hyphens with the opening one, and the text on the two sides
of a comment may join to a marker. -/
example : strip "<!--><!--a--><!<!---->--b-->".toList = "<!--b-->".toList := by cbv

end Weave.Comment
