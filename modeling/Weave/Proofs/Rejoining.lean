import Weave.Proofs.Stripping

/-!
# Comments that a deletion makes

When a comment is deleted, the text in front of it meets the text behind it, and the two may make an
opening marker that was not there before. The comments of a document are deleted in one pass, which
does not look back: the marker stays. It would not if the first comment of what is left were deleted
again and again until there is none. This file says exactly when the two part ways, and exactly when
a comment is left over.

## Main definitions

* `Weave.Comment.exhaust`: a document after its first comment has been deleted again and again.
* `Weave.Comment.deletions`, `Weave.Comment.passed`: the comments that are deleted, one after the
  other, in this way and in one pass.
* `Weave.Comment.Knits`: two texts that make a comment of a marker where they meet.

## Main results

* `Weave.Comment.next?_append`: the comment that is found behind a text that knits nothing.
* `Weave.Comment.deletions_append_iff`: when a pass deletes the comments that are deleted one by
  one.
* `Weave.Comment.strip_exhausts_iff`: what this says of a document, and of a second pass.
* `Weave.Comment.strip_rejoined`: a document with a comment that only a second pass deletes.
-/

namespace Weave

/-- An occurrence in two texts that are put together lies in one of them or in both. -/
theorem Text.append_eq_append_needle {needle s t before rest : Text}
    (h : s ++ t = before ++ needle ++ rest) :
    (∃ more, s = before ++ needle ++ more) ∨ (∃ more, t = more ++ needle ++ rest) ∨
      ∃ u v, u ≠ [] ∧ v ≠ [] ∧ u ++ v = needle ∧ s = before ++ u ∧ t = v ++ rest := by
  rcases List.append_eq_append_iff.mp h with ⟨v, hneedle, ht⟩ | ⟨more, hs, -⟩
  · rcases List.append_eq_append_iff.mp hneedle with ⟨u, hs, hneedle⟩ | ⟨more, -, hv⟩
    · by_cases hu : u = []
      · exact .inr (.inl ⟨[], by rw [ht, hneedle, hu]; rfl⟩)
      · by_cases hv : v = []
        · exact .inl ⟨[], by rw [hs, hneedle, hv]; simp⟩
        · exact .inr (.inr ⟨u, v, hu, hv, hneedle.symm, hs, ht⟩)
    · exact .inr (.inl ⟨more, by rw [ht, hv]⟩)
  · exact .inl ⟨more, hs⟩

namespace Comment

/-! ### Where two texts meet -/

/-- A text with a complete comment in it: an opening marker and a closing one behind it. -/
def HasComment (t : Text) : Prop :=
  ∃ before inside after, t = before ++ openMarker ++ inside ++ closeMarker ++ after

variable {front rest : Text}

theorem next?_eq_none_iff_not_hasComment {t : Text} : next? t = none ↔ ¬HasComment t := by
  simp only [next?_eq_none_iff, HasComment, not_exists]

/-- Two texts that make an opening marker where they meet, with a closing one behind it. -/
def Knits (front rest : Text) : Prop :=
  ∃ u v tail, u ≠ [] ∧ v ≠ [] ∧ u ++ v = openMarker ∧ u <:+ front ∧ rest = v ++ tail ∧
    closeMarker <:+: tail

theorem not_knits_nil (rest : Text) : ¬Knits [] rest := by
  rintro ⟨u, v, tail, hu, -, -, hsuffix, -, -⟩
  exact hu (List.suffix_nil.mp hsuffix)

/-- What stands further in front makes no difference. -/
theorem Knits.append_left (h : Knits front rest) (further : Text) :
    Knits (further ++ front) rest := by
  obtain ⟨u, v, tail, hu, hv, hmarker, hsuffix, hrest, hclose⟩ := h
  exact ⟨u, v, tail, hu, hv, hmarker, hsuffix.trans (List.suffix_append further front), hrest,
    hclose⟩

theorem Knits.hasComment (h : Knits front rest) : HasComment (front ++ rest) := by
  obtain ⟨u, v, tail, -, -, hmarker, ⟨further, rfl⟩, rfl, inside, after, rfl⟩ := h
  exact ⟨further, inside, after, by simp [← hmarker]⟩

/-- A comment behind a text without an opening marker is made where the two meet or stands behind
it. -/
theorem hasComment_append_iff (hfront : ¬openMarker <:+: front) :
    HasComment (front ++ rest) ↔ Knits front rest ∨ HasComment rest := by
  constructor
  · rintro ⟨before, inside, after, htext⟩
    have hneedle : front ++ rest = before ++ openMarker ++ (inside ++ closeMarker ++ after) := by
      rw [htext]
      simp only [List.append_assoc]
    obtain ⟨more, rfl⟩ | ⟨more, rfl⟩ | ⟨u, v, hu, hv, hmarker, rfl, rfl⟩ :=
      Text.append_eq_append_needle hneedle
    · exact absurd (List.infix_append before openMarker more) hfront
    · exact .inr ⟨more, inside, after, by simp only [List.append_assoc]⟩
    · exact .inl ⟨u, v, _, hu, hv, hmarker, List.suffix_append before u, rfl,
        List.infix_append inside closeMarker after⟩
  · rintro (hknits | ⟨before, inside, after, rfl⟩)
    · exact hknits.hasComment
    · exact ⟨front ++ before, inside, after, by simp only [List.append_assoc]⟩

/-- Behind a text without an opening marker that knits nothing, the first comment is the one that is
found without it. -/
theorem next?_append (hfront : ¬openMarker <:+: front) (hknits : ¬Knits front rest) :
    next? (front ++ rest) =
      (next? rest).map fun (before, inside, after) ↦ (front ++ before, inside, after) := by
  cases hnext : next? rest with
  | none =>
    have hnone := next?_eq_none_iff_not_hasComment.mp hnext
    exact next?_eq_none_iff_not_hasComment.mpr
      (mt (hasComment_append_iff hfront).mp (not_or.mpr ⟨hknits, hnone⟩))
  | some found =>
    obtain ⟨before, inside, after⟩ := found
    obtain ⟨rfl, hbefore, hinside⟩ := next?_eq_some_iff.mp hnext
    refine next?_eq_some_iff.mpr ⟨by simp only [List.append_assoc], ?_, hinside⟩
    rintro ⟨further, more, htext⟩
    obtain ⟨back, rfl⟩ | ⟨back, rfl⟩ | ⟨u, v, hu, hv, hmarker, rfl, rfl⟩ :=
      Text.append_eq_append_needle htext.symm
    · exact hfront (List.infix_append further openMarker back)
    · exact hbefore (List.infix_append back openMarker more)
    · exact hknits ⟨u, v, more ++ openMarker ++ inside ++ closeMarker ++ after, hu, hv, hmarker,
        List.suffix_append further u, by simp only [List.append_assoc],
        List.infix_append _ closeMarker after⟩

/-- Behind a text that knits, the first comment starts in that text. -/
theorem Knits.exists_next? (h : Knits front rest) : ∃ before inside after,
    next? (front ++ rest) = some (before, inside, after) ∧ before.length < front.length := by
  cases hnext : next? (front ++ rest) with
  | none => exact absurd h.hasComment (next?_eq_none_iff_not_hasComment.mp hnext)
  | some found =>
    obtain ⟨before, inside, after⟩ := found
    refine ⟨before, inside, after, rfl, ?_⟩
    obtain ⟨htext, hbefore, -⟩ := next?_eq_some_iff.mp hnext
    obtain ⟨u, v, tail, hu, -, hmarker, ⟨further, rfl⟩, rfl, -⟩ := h
    have hbreak : Text.breakOn? openMarker (further ++ openMarker ++ tail) = some (before, _) :=
      breakOn?_openMarker.mpr ⟨by simpa [← hmarker] using htext, hbefore⟩
    have hle := Text.length_le_of_breakOn?_append hbreak
    have hpos := List.length_pos_iff.mpr hu
    rw [List.length_append]
    omega

/-! ### The comments that are deleted -/

/-- A comment that is deleted, between what is left of the text in front of it and the text behind
it. -/
structure Deletion where
  front : Text
  inside : Text
  rest : Text

/-- What is left when the comment has been deleted. -/
def Deletion.left (deletion : Deletion) : Text := deletion.front ++ deletion.rest

/-- What is left of a document after its first comment is shorter than the document. -/
theorem length_append_lt_of_next? {document before inside after : Text}
    (h : next? document = some (before, inside, after)) :
    (before ++ after).length < document.length := by
  have hlength := congrArg List.length (eq_append_of_next? h)
  simp only [List.length_append, openMarker, closeMarker, List.length_cons] at hlength ⊢
  omega

/-- The document after its first comment has been deleted again and again, until there is none. -/
def exhaust (document : Text) : Text :=
  match _h : next? document with
  | none => document
  | some (before, _, after) => exhaust (before ++ after)
termination_by document.length
decreasing_by exact length_append_lt_of_next? _h

/-- The comments that are deleted when the first one is deleted again and again. -/
def deletions (document : Text) : List Deletion :=
  match _h : next? document with
  | none => []
  | some (before, inside, after) => ⟨before, inside, after⟩ :: deletions (before ++ after)
termination_by document.length
decreasing_by exact length_append_lt_of_next? _h

/-- The comments that are deleted in one pass over a text; `front` is what is left of the text
before it. -/
def passed (front document : Text) : List Deletion :=
  match _h : next? document with
  | none => []
  | some (before, inside, after) =>
    ⟨front ++ before, inside, after⟩ :: passed (front ++ before) after
termination_by document.length
decreasing_by exact length_lt_of_next? _h

variable {document before inside after : Text}

theorem deletions_of_next? (h : next? document = some (before, inside, after)) :
    deletions document = ⟨before, inside, after⟩ :: deletions (before ++ after) := by
  rw [deletions]
  split
  · rename_i hnone
    cases h.symm.trans hnone
  · rename_i hsome
    cases h.symm.trans hsome
    rfl

theorem deletions_eq_nil_iff : deletions document = [] ↔ ¬HasComment document := by
  rw [← next?_eq_none_iff_not_hasComment, deletions]
  split <;> simp [*]

/-- Nothing is left to be deleted. -/
theorem not_hasComment_exhaust (document : Text) : ¬HasComment (exhaust document) := by
  fun_induction exhaust document with
  | case1 document hnone => exact next?_eq_none_iff_not_hasComment.mp hnone
  | case2 _ _ _ _ _ ih => exact ih

/-- What is left at the end is what the last deletion leaves. -/
theorem exhaust_eq_left (document : Text) :
    exhaust document = (deletions document).getLast?.elim document Deletion.left := by
  fun_induction exhaust document with
  | case1 document hnone =>
    rw [deletions_eq_nil_iff.mpr (next?_eq_none_iff_not_hasComment.mp hnone)]
    rfl
  | case2 document before inside after hsome ih =>
    rw [ih, deletions_of_next? hsome, List.getLast?_cons]
    cases (deletions (before ++ after)).getLast? <;> rfl

theorem strip_eq_left (front document : Text) :
    front ++ strip document =
      (passed front document).getLast?.elim (front ++ document) Deletion.left := by
  fun_induction passed front document with
  | case1 front document hnone => rw [strip_of_next?_eq_none hnone]; rfl
  | case2 front document before inside after hsome ih =>
    rw [strip_of_next? hsome, ← List.append_assoc, ih, List.getLast?_cons]
    cases (passed (front ++ before) after).getLast? <;> rfl

/-- A pass leaves what it has left in front of a comment and what it leaves of the text behind
it. -/
theorem append_strip_of_mem_passed {deletion : Deletion} (h : deletion ∈ passed front document) :
    front ++ strip document = deletion.front ++ strip deletion.rest := by
  fun_induction passed front document with
  | case1 => cases h
  | case2 front document before inside after hsome ih =>
    rw [strip_of_next? hsome, ← List.append_assoc]
    rcases List.mem_cons.mp h with rfl | h
    · rfl
    · exact ih h

/-! ### One pass and many -/

/-- A pass deletes the comments that are deleted one by one exactly if the two texts that meet at a
deleted comment never knit. -/
theorem deletions_append_iff (hfront : ¬openMarker <:+: front) (document : Text) :
    deletions (front ++ document) = passed front document ↔
      ¬Knits front document ∧
        ∀ deletion ∈ passed front document, ¬Knits deletion.front deletion.rest := by
  fun_induction passed front document with
  | case1 front document hnone =>
    rw [deletions_eq_nil_iff, hasComment_append_iff hfront]
    simp [next?_eq_none_iff_not_hasComment.mp hnone]
  | case2 front document before inside after hsome ih =>
    by_cases hknits : Knits front document
    · -- The comment that is deleted next starts too early.
      obtain ⟨first, _, _, hfirst, hlt⟩ := hknits.exists_next?
      refine iff_of_false (fun heq ↦ ?_) fun h ↦ h.1 hknits
      rw [deletions_of_next? hfirst, List.cons.injEq, Deletion.mk.injEq] at heq
      have hlength := congrArg List.length heq.1.1
      rw [List.length_append] at hlength
      omega
    · have hnext : next? (front ++ document) = some (front ++ before, inside, after) := by
        rw [next?_append hfront hknits, hsome]
        rfl
      rw [deletions_of_next? hnext, List.cons_inj_right, ih (next?_eq_some_iff.mp hnext).2.1,
        List.forall_mem_cons]
      simp only [hknits, not_false_eq_true, true_and]

/-- A comment that is left over is made where the texts meet that a pass leaves. -/
theorem exists_knits_of_hasComment (front : Text) (h : HasComment (strip document)) :
    ∃ deletion ∈ passed front document, Knits deletion.front (strip deletion.rest) := by
  fun_induction passed front document with
  | case1 front document hnone =>
    rw [strip_of_next?_eq_none hnone] at h
    exact absurd h (next?_eq_none_iff_not_hasComment.mp hnone)
  | case2 front document before inside after hsome ih =>
    rw [strip_of_next? hsome, hasComment_append_iff (next?_eq_some_iff.mp hsome).2.1] at h
    obtain hknits | hrest := h
    · exact ⟨_, List.mem_cons_self, hknits.append_left front⟩
    · obtain ⟨deletion, hmem, hknits⟩ := ih hrest
      exact ⟨deletion, List.mem_cons_of_mem _ hmem, hknits⟩

theorem length_strip_le (document : Text) : (strip document).length ≤ document.length := by
  fun_induction strip document with
  | case1 => exact le_rfl
  | case2 document before inside after hsome ih =>
    have hlt := length_append_lt_of_next? hsome
    rw [List.length_append] at hlt ⊢
    omega

/-- A text stays as it is exactly if there is no comment in it. -/
theorem strip_eq_self_iff : strip document = document ↔ ¬HasComment document := by
  rw [← next?_eq_none_iff_not_hasComment]
  refine ⟨fun hself ↦ ?_, strip_of_next?_eq_none⟩
  cases hnext : next? document with
  | none => rfl
  | some found =>
    obtain ⟨before, inside, after⟩ := found
    have hle := length_strip_le after
    have hlt := length_append_lt_of_next? hnext
    have hlength := congrArg List.length (hself.symm.trans (strip_of_next? hnext))
    rw [List.length_append] at hlt hlength
    omega

/-- **One pass and many.** The comments that one pass deletes are those that are deleted when the
first comment is deleted again and again exactly if the texts that meet at a deleted comment never
make an opening marker with a closing one behind it; then the same is left of the document. There is
no comment in what a pass leaves exactly if what it leaves in front of a deleted comment and what it
leaves behind it never do so; and only then does a second pass change nothing. -/
theorem strip_exhausts_iff (document : Text) :
    (deletions document = passed [] document ↔
      ∀ deletion ∈ passed [] document, ¬Knits deletion.front deletion.rest) ∧
    (deletions document = passed [] document →
      strip document = exhaust document ∧ ¬HasComment (strip document)) ∧
    (¬HasComment (strip document) ↔
      ∀ deletion ∈ passed [] document, ¬Knits deletion.front (strip deletion.rest)) ∧
    (strip (strip document) = strip document ↔ ¬HasComment (strip document)) := by
  refine ⟨?_, fun hsame ↦ ?_, ?_, strip_eq_self_iff⟩
  · have hnil : ¬openMarker <:+: [] := by decide
    simpa [not_knits_nil] using deletions_append_iff hnil document
  · have hleft : strip document = exhaust document := by
      rw [exhaust_eq_left, hsame]
      exact strip_eq_left [] document
    exact ⟨hleft, hleft ▸ not_hasComment_exhaust document⟩
  · constructor
    · rintro hnone deletion hmem hknits
      refine hnone ?_
      rw [← List.nil_append (strip document), append_strip_of_mem_passed hmem]
      exact hknits.hasComment
    · rintro hnone hcomment
      obtain ⟨deletion, hmem, hknits⟩ := exists_knits_of_hasComment [] hcomment
      exact hnone deletion hmem hknits

/-- A document of which the same is left either way, although other comments are deleted. -/
def meander : Text := "<!-<!-<!---->-<!---->-><!--><!-<!--->".toList

example : strip meander = exhaust meander ∧
    (deletions meander).map Deletion.front = ["<!-<!-".toList, "<!-".toList, []] ∧
    (passed [] meander).map Deletion.front =
      ["<!-<!-".toList, "<!-<!--".toList, "<!-<!--->".toList] := by cbv

/-- A document in which the text around a comment makes an opening marker. -/
def rejoined : Text := "<!<!--a-->--b-->".toList

/-- A comment is left over, which is deleted only by a second pass. -/
theorem strip_rejoined :
    strip rejoined = "<!--b-->".toList ∧ HasComment (strip rejoined) ∧ exhaust rejoined = [] ∧
      strip (strip rejoined) = [] := by
  have hstrip : strip rejoined = "<!--b-->".toList := by cbv
  refine ⟨hstrip, ⟨[], ['b'], [], hstrip⟩, by cbv, ?_⟩
  rw [hstrip]
  cbv

end Comment

end Weave
