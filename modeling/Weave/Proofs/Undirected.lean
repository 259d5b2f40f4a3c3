import Weave.Proofs.Preview
import Weave.Proofs.Stripping

/-!
# Documents without directives

A document without a complete comment, a directive for a file, a marker for the table of contents or
a complete block holds nothing for any filter to do. What these are is said of the text alone, in
terms of the parts that it would have to be made up of. Each filter's search finds nothing exactly
if there are no such parts, so that what only looks like a directive is passed through.

## Main definitions

* `Weave.HasNoDirective`: a document that holds nothing for a filter to do.

## Main results

* `Weave.Include.nextDirective?_eq_none_iff`: when the search for a directive finds nothing.
* `Weave.hasNoDirective_iff`: the condition on the text and that on the searches are the same.
* `Weave.Pipeline.run_undirected`: such documents pass through the standard pipeline.
-/

namespace Weave

/-! ### Included files -/

namespace Include

/-- The text up to a character on the same line holds neither this character nor a line feed. -/
theorem upTo?_eq_some_iff {closing : Char} {t inside rest : Text} :
    upTo? closing t = some (inside, rest) ↔
      t = inside ++ closing :: rest ∧ closing ∉ inside ∧ '\n' ∉ inside := by
  constructor
  · intro h
    refine ⟨eq_append_of_upTo? h, ?_⟩
    induction t generalizing inside with
    | nil => cases h
    | cons c cs ih =>
      rw [upTo?] at h
      split at h
      · obtain ⟨rfl, -⟩ : [] = inside ∧ cs = rest := by simpa using h
        simp
      · rename_i hclosing
        obtain ⟨hfeed, ⟨inner, found⟩, hinner, hequal⟩ :
            c ≠ '\n' ∧ ∃ found, upTo? closing cs = some found ∧
              (c :: found.1, found.2) = (inside, rest) := by
          simpa using h
        obtain ⟨rfl, rfl⟩ := Prod.mk.inj hequal
        obtain ⟨hout, hfeeds⟩ := ih hinner
        exact ⟨List.not_mem_cons_of_ne_of_not_mem (Ne.symm hclosing) hout,
          List.not_mem_cons_of_ne_of_not_mem (Ne.symm hfeed) hfeeds⟩
  · rintro ⟨rfl, hclosing, hfeed⟩
    induction inside with
    | nil => simp [upTo?]
    | cons c cs ih =>
      obtain ⟨hc, hcs⟩ := not_or.mp (mt List.mem_cons.mpr hclosing)
      obtain ⟨hc', hcs'⟩ := not_or.mp (mt List.mem_cons.mpr hfeed)
      rw [List.cons_append, upTo?, if_neg (Ne.symm hc), if_neg (Ne.symm hc'), ih hcs hcs']
      rfl

/-- A directive at the start of a text: its options and its target, each between brackets on one
line. -/
theorem directive?_eq_some_iff {t raw target after : Text} :
    directive? t = some (raw, target, after) ↔
      t = ['@', '['] ++ raw ++ [']', '('] ++ target ++ ')' :: after ∧
        (']' ∉ raw ∧ '\n' ∉ raw) ∧ ')' ∉ target ∧ '\n' ∉ target := by
  constructor
  · intro h
    refine ⟨eq_append_of_directive? h, ?_⟩
    unfold directive? at h
    split at h
    · split at h
      · rename_i inside rest hraw
        simp only [Option.map_eq_some_iff, Prod.mk.injEq] at h
        obtain ⟨⟨found, last⟩, htarget, rfl, rfl, rfl⟩ := h
        exact ⟨(upTo?_eq_some_iff.mp hraw).2, (upTo?_eq_some_iff.mp htarget).2⟩
      · cases h
    · cases h
  · rintro ⟨rfl, hraw, htarget⟩
    have hinside : upTo? ']' (raw ++ ']' :: '(' :: (target ++ ')' :: after)) =
        some (raw, '(' :: (target ++ ')' :: after)) := upTo?_eq_some_iff.mpr ⟨rfl, hraw⟩
    have hrest : upTo? ')' (target ++ ')' :: after) = some (target, after) :=
      upTo?_eq_some_iff.mpr ⟨rfl, htarget⟩
    simp [directive?, hinside, hrest]

/-- No directive is found exactly if none starts anywhere. -/
theorem nextDirective?_eq_none_iff_suffix {document : Text} :
    nextDirective? document = none ↔ ∀ t, t <:+ document → directive? t = none := by
  induction document with
  | nil => simp [nextDirective?, directive?]
  | cons c cs ih =>
    simp only [List.suffix_cons_iff, forall_eq_or_imp, ← ih]
    rw [nextDirective?]
    cases directive? (c :: cs) <;> simp

/-- No directive is found exactly if the document is not made up of parts with one between them. -/
theorem nextDirective?_eq_none_iff {document : Text} :
    nextDirective? document = none ↔ ∀ before raw target after,
      ']' ∉ raw → '\n' ∉ raw → ')' ∉ target → '\n' ∉ target →
        document ≠ before ++ ['@', '['] ++ raw ++ [']', '('] ++ target ++ [')'] ++ after := by
  rw [nextDirective?_eq_none_iff_suffix]
  constructor
  · rintro h before raw target after hraw hraw' htarget htarget' rfl
    have hnone := h (['@', '['] ++ raw ++ [']', '('] ++ target ++ ')' :: after)
      ⟨before, by simp⟩
    rw [directive?_eq_some_iff.mpr ⟨rfl, ⟨hraw, hraw'⟩, htarget, htarget'⟩] at hnone
    cases hnone
  · rintro h t ⟨before, rfl⟩
    refine Option.eq_none_iff_forall_ne_some.mpr fun ⟨raw, target, after⟩ hsome ↦ ?_
    obtain ⟨rfl, hraw, htarget⟩ := directive?_eq_some_iff.mp hsome
    exact h before raw target after hraw.1 hraw.2 htarget.1 htarget.2 (by simp)

/-- A document without directives is unchanged, and no file is read for it. -/
theorem resolve_of_nextDirective?_eq_none {document : Text} (h : nextDirective? document = none)
    (read : Text → Except Text Text) : resolve read document = .ok document := by
  rw [resolve]
  split
  · rfl
  · rename_i hsome
    rw [h] at hsome
    cases hsome

end Include

/-! ### Documents without directives -/

/-- A document that holds nothing for a filter to do. -/
structure HasNoDirective (document : Text) : Prop where
  /-- No comment is both opened and closed. -/
  comment : ∀ before inside after,
    document ≠ before ++ Comment.openMarker ++ inside ++ Comment.closeMarker ++ after
  /-- Nowhere do options and a target stand between brackets as in `@[options](target)`. -/
  inclusion : ∀ before raw target after,
    ']' ∉ raw → '\n' ∉ raw → ')' ∉ target → '\n' ∉ target →
      document ≠ before ++ ['@', '['] ++ raw ++ [']', '('] ++ target ++ [')'] ++ after
  /-- The marker for the table of contents stands nowhere. -/
  contents : ∀ before after, document ≠ before ++ Contents.marker ++ after
  /-- No line that opens a block has a line behind it that closes one. -/
  block : (Text.brokenLines document).Pairwise Fence.Unmatched

/-- A document holds nothing for a filter to do exactly if no filter finds anything. -/
theorem hasNoDirective_iff {document : Text} :
    HasNoDirective document ↔
      Comment.next? document = none ∧ Include.nextDirective? document = none ∧
        Text.holds Contents.marker document = false ∧
        Segment.blocks (Segment.scan document) = [] := by
  rw [Comment.next?_eq_none_iff, Include.nextDirective?_eq_none_iff, Text.holds_eq_false_iff,
    Segment.scan, Segment.blocks_scanLines_eq_nil_iff]
  constructor
  · rintro ⟨hcomment, hinclusion, hcontents, hblock⟩
    exact ⟨hcomment, hinclusion, hcontents, hblock⟩
  · rintro ⟨hcomment, hinclusion, hcontents, hblock⟩
    exact ⟨hcomment, hinclusion, hcontents, hblock⟩

namespace Pipeline

variable {document : Text}

/-- The standard pipeline makes of a document without directives the document itself. -/
theorem preview_undirected (h : HasNoDirective document) {options : RunOptions}
    (hcollapse : options.collapseBlankLines = false) (base : Text)
    (read : Text → Except Text Text) : preview options base read document = .ok document := by
  obtain ⟨hcomment, hinclusion, hcontents, hblock⟩ := hasNoDirective_iff.mp h
  simp [preview, Comment.strip_of_next?_eq_none hcomment,
    Include.resolve_of_nextDirective?_eq_none hinclusion,
    Contents.insert_of_holds_marker hcontents, (Segment.listing_eq_self_iff document).mpr hblock,
    hcollapse]

/-- What is logged for a document without directives depends on the options only. -/
theorem remarks_undirected (h : HasNoDirective document) (options : RunOptions)
    (base other : Text) (read reread : Text → Except Text Text) :
    remarks options base read document = remarks options other reread document := by
  obtain ⟨hcomment, hinclusion, -, -⟩ := hasNoDirective_iff.mp h
  have hresolve := Include.resolve_of_nextDirective?_eq_none hinclusion
  simp only [remarks, withWorkspace, List.cons_append, List.nil_append, remarksAll, Filter.preview,
    Comment.strip_of_next?_eq_none hcomment, hresolve]
  cases options.collapseBlankLines <;> rfl

/-- **Documents without directives.** A document without a complete comment, a directive for a file,
a marker for the table of contents or a complete block is returned by a standard pipeline that does
not collapse blank lines. This is so whatever the settings, the directories, the files and the
processes are: nothing but the log is changed, and what is written to the log does not depend on
them either, so that no file is read and no process is started. -/
theorem run_undirected (h : HasNoDirective document) {options : RunOptions}
    (hcollapse : options.collapseBlankLines = false) :
    ∃ events, ∀ {ω σ : Type} (host : Host ω σ) (settings : Settings) (base workspace : Text)
      (scene : Scene ω),
      let pipeline : Pipeline σ := withWorkspace options settings base workspace
      (pipeline.run host document).outcome scene = (.ok (.ok document, pipeline),
        scene.logged events) := by
  refine ⟨remarks options [] .error document, fun host settings base workspace scene ↦ ?_⟩
  intro pipeline
  obtain ⟨hcomment, hinclusion, hcontents, hblock⟩ := hasNoDirective_iff.mp h
  have hnone (included : Text) (hincluded : Include.resolve
      (fun target ↦ host.readText scene.world (Path.join base target)) (Comment.strip document) =
        .ok included) : Segment.blocks (Segment.scan (Contents.insert included)) = [] := by
    rw [Comment.strip_of_next?_eq_none hcomment,
      Include.resolve_of_nextDirective?_eq_none hinclusion] at hincluded
    obtain rfl := Except.ok.inj hincluded
    rwa [Contents.insert_of_holds_marker hcontents]
  have hrun : (pipeline.run host document).outcome scene = _ :=
    run_withWorkspace host (.inr hnone)
  rw [hrun, preview_undirected h hcollapse, remarks_undirected h options base []]

/-- A document with a fence like any other, text that only looks like a directive for a file, a
block that is never closed and a comment that is never closed. -/
def lookalike : Text :=
  ("```sh\necho\n```\n@[ini=a\n](b) @[c] (d) @[e](f\n[toc] --> [TO C]\n" ++
    "```sh exec\nls <!-- -- >\n````\n").toList

/-- The run of a document that only looks as if it held directives. -/
theorem run_lookalike :
    HasNoDirective lookalike ∧ (Segment.scan lookalike).length = 2 ∧
    ∃ events, ∀ {ω σ : Type} (host : Host ω σ) (settings : Settings) (base workspace : Text)
      (scene : Scene ω),
      let pipeline : Pipeline σ := withWorkspace { verbose := true } settings base workspace
      (pipeline.run host lookalike).outcome scene = (.ok (.ok lookalike, pipeline),
        scene.logged events) := by
  have hnone : HasNoDirective lookalike := hasNoDirective_iff.mpr (by decide +kernel)
  exact ⟨hnone, by decide +kernel, run_undirected hnone rfl⟩

end Pipeline

end Weave
