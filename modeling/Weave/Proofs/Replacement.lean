import Weave.Proofs.Undirected

/-!
# Directives and what takes their place

A document divides in one way only into the directives for files that are found in it from the left,
each behind the end of the one before it, and the text around them. Resolving the document puts the
chosen part of a file in the place of each of these directives and leaves the text around them as it
is. If a directive fails, the first one that does decides about the error.

No directive reaches over the end of a line, so that lines are resolved one after the other.

## Main definitions

* `Weave.Include.IsDirective`, `Weave.Include.written`: a directive and its text.
* `Weave.Include.Passage`, `Weave.Include.Decomposes`: the directives of a document and the text
  around them.
* `Weave.Include.Passage.replacement`: what takes the place of a directive.

## Main results

* `Weave.Include.nextDirective?_eq_some_iff`: which directive is found first.
* `Weave.Include.existsUnique_decomposes`: a document decomposes in exactly one way.
* `Weave.Include.Decomposes.resolve_eq`, `Weave.Include.Decomposes.resolve_eq_error`: what a
  document is resolved to.
* `Weave.Include.resolve_append`: lines are resolved one after the other.
* `Weave.Include.run_inclusion`: what the filter for files makes of a document.
-/

namespace Weave

namespace Include

/-! ### The first directive -/

/-- An option list and a target that can stand between the brackets of a directive. -/
structure IsDirective (raw target : Text) : Prop where
  raw : ']' ∉ raw ∧ '\n' ∉ raw
  target : ')' ∉ target ∧ '\n' ∉ target

/-- The text of a directive. -/
def written (raw target : Text) : Text := ['@', '['] ++ raw ++ [']', '('] ++ target ++ [')']

theorem directive?_eq_some_iff_written {t raw target after : Text} :
    directive? t = some (raw, target, after) ↔
      IsDirective raw target ∧ t = written raw target ++ after := by
  rw [directive?_eq_some_iff]
  constructor
  · rintro ⟨rfl, hraw, htarget⟩
    exact ⟨⟨hraw, htarget⟩, by simp [written]⟩
  · rintro ⟨⟨hraw, htarget⟩, rfl⟩
    exact ⟨by simp [written], hraw, htarget⟩

/-- A text without a directive. -/
def IsFree (t : Text) : Prop :=
  ∀ before raw target after, IsDirective raw target → t ≠ before ++ written raw target ++ after

theorem nextDirective?_eq_none_iff_isFree {document : Text} :
    nextDirective? document = none ↔ IsFree document := by
  rw [nextDirective?_eq_none_iff]
  constructor
  · rintro h before raw target after ⟨hraw, htarget⟩
    simpa [written] using h before raw target after hraw.1 hraw.2 htarget.1 htarget.2
  · intro h before raw target after hraw hraw' htarget htarget'
    simpa [written] using h before raw target after ⟨⟨hraw, hraw'⟩, htarget, htarget'⟩

/-- A directive that stands behind `gap` in a text, and before which no other one starts. -/
def IsFirst (gap raw target rest : Text) : Prop :=
  IsDirective raw target ∧ ∀ before raw' target' after, IsDirective raw' target' →
    gap ++ written raw target ++ rest = before ++ written raw' target' ++ after →
      gap.length ≤ before.length

/-- What is found is a directive before which no other one starts. -/
theorem isFirst_of_nextDirective? {document : Text} {d : Directive}
    (h : nextDirective? document = some d) :
    document = d.before ++ written d.raw d.target ++ d.after ∧
      IsFirst d.before d.raw d.target d.after := by
  have hdocument : document = d.before ++ written d.raw d.target ++ d.after := by
    simpa [written] using eq_append_of_nextDirective? h
  unfold IsFirst
  rw [← hdocument]
  refine ⟨rfl, ?_⟩
  clear hdocument
  induction document generalizing d with
  | nil => cases h
  | cons c cs ih =>
    rw [nextDirective?] at h
    cases hstart : directive? (c :: cs) with
    | some found =>
      obtain ⟨raw, target, after⟩ := found
      simp only [hstart, Option.some.injEq] at h
      subst h
      exact ⟨(directive?_eq_some_iff_written.mp hstart).1, fun _ _ _ _ _ _ ↦ Nat.zero_le _⟩
    | none =>
      simp only [hstart, Option.map_eq_some_iff] at h
      obtain ⟨e, he, rfl⟩ := h
      obtain ⟨hdirective, hfirst⟩ := ih he
      refine ⟨hdirective, fun before raw target after hother hequal ↦ ?_⟩
      cases before with
      | nil =>
        rw [directive?_eq_some_iff_written.mpr ⟨hother, by simpa using hequal⟩] at hstart
        cases hstart
      | cons b before =>
        have htail : cs = before ++ written raw target ++ after := by
          simpa using (List.cons.inj hequal).2
        exact Nat.succ_le_succ (hfirst before raw target after hother htail)

/-- The directive that is found is the one before which no other one starts. -/
theorem nextDirective?_eq_some_iff {document : Text} {d : Directive} :
    nextDirective? document = some d ↔
      document = d.before ++ written d.raw d.target ++ d.after ∧
        IsFirst d.before d.raw d.target d.after := by
  refine ⟨isFirst_of_nextDirective?, ?_⟩
  rintro ⟨hdocument, hdirective, hfirst⟩
  cases hfound : nextDirective? document with
  | none =>
    exact absurd hdocument (nextDirective?_eq_none_iff_isFree.mp hfound _ _ _ _ hdirective)
  | some e =>
    obtain ⟨hequal, hdirective', hfirst'⟩ := isFirst_of_nextDirective? hfound
    rw [hdocument] at hequal
    have hlength : d.before.length = e.before.length :=
      Nat.le_antisymm (hfirst _ _ _ _ hdirective' hequal) (hfirst' _ _ _ _ hdirective hequal.symm)
    rw [List.append_assoc, List.append_assoc] at hequal
    obtain ⟨hbefore, hrest⟩ := List.append_inj hequal hlength
    -- The same text starts with both directives, which are then the same.
    have hstart : directive? (written d.raw d.target ++ d.after) =
        some (d.raw, d.target, d.after) := directive?_eq_some_iff_written.mpr ⟨hdirective, rfl⟩
    rw [hrest, directive?_eq_some_iff_written.mpr ⟨hdirective', rfl⟩] at hstart
    obtain ⟨hraw, htarget, hafter⟩ : e.raw = d.raw ∧ e.target = d.target ∧ e.after = d.after := by
      simpa using hstart
    rw [Option.some.injEq]
    calc e = ⟨e.before, e.raw, e.target, e.after⟩ := rfl
      _ = d := by rw [hraw, htarget, hafter, ← hbefore]

theorem IsFirst.nextDirective? {gap raw target rest : Text} (h : IsFirst gap raw target rest) :
    nextDirective? (gap ++ written raw target ++ rest) = some ⟨gap, raw, target, rest⟩ :=
  nextDirective?_eq_some_iff.mpr ⟨rfl, h⟩

/-! ### All directives -/

/-- A directive with the text in front of it, back to the directive before. -/
structure Passage where
  gap : Text
  raw : Text
  target : Text

/-- The directives of a document, taken from the left, each with the text in front of it, and the
text behind the last one. -/
inductive Decomposes : Text → List Passage → Text → Prop
  | last {document : Text} (hfree : IsFree document) : Decomposes document [] document
  | next {gap raw target rest final : Text} {passages : List Passage}
      (hfirst : IsFirst gap raw target rest) (hrest : Decomposes rest passages final) :
      Decomposes (gap ++ written raw target ++ rest) (⟨gap, raw, target⟩ :: passages) final

variable {document final : Text} {passages : List Passage}

/-- A document in which no directive is found is all that there is. -/
theorem Decomposes.of_none (h : Decomposes document passages final)
    (hnext : nextDirective? document = none) : passages = [] ∧ final = document := by
  cases h with
  | last => exact ⟨rfl, rfl⟩
  | next hfirst => exact absurd rfl (nextDirective?_eq_none_iff_isFree.mp hnext _ _ _ _ hfirst.1)

/-- The directive that is found in a document is the first one of its decomposition. -/
theorem Decomposes.of_some {d : Directive} (h : Decomposes document passages final)
    (hnext : nextDirective? document = some d) :
    ∃ rest, passages = ⟨d.before, d.raw, d.target⟩ :: rest ∧ Decomposes d.after rest final := by
  cases h with
  | last hfree => rw [nextDirective?_eq_none_iff_isFree.mpr hfree] at hnext; cases hnext
  | next hfirst hrest =>
    obtain rfl := Option.some.inj (hfirst.nextDirective?.symm.trans hnext)
    exact ⟨_, rfl, hrest⟩

theorem exists_decomposes (document : Text) :
    ∃ passages final, Decomposes document passages final := by
  cases hnext : nextDirective? document with
  | none => exact ⟨[], document, .last (nextDirective?_eq_none_iff_isFree.mp hnext)⟩
  | some d =>
    obtain ⟨passages, final, hrest⟩ := exists_decomposes d.after
    obtain ⟨hdocument, hfirst⟩ := nextDirective?_eq_some_iff.mp hnext
    have hall : Decomposes document (⟨d.before, d.raw, d.target⟩ :: passages) final := by
      rw [hdocument]
      exact .next hfirst hrest
    exact ⟨_, final, hall⟩
termination_by document.length
decreasing_by exact length_lt_of_nextDirective? hnext

/-- Two decompositions of a document are the same. -/
theorem Decomposes.unique {final' : Text} {passages' : List Passage}
    (h : Decomposes document passages final) (h' : Decomposes document passages' final') :
    passages' = passages ∧ final' = final := by
  induction h generalizing passages' with
  | last hfree => exact h'.of_none (nextDirective?_eq_none_iff_isFree.mpr hfree)
  | next hfirst hrest ih =>
    obtain ⟨more, rfl, hmore⟩ := h'.of_some hfirst.nextDirective?
    obtain ⟨rfl, rfl⟩ := ih hmore
    exact ⟨rfl, rfl⟩

/-- A document decomposes in exactly one way. -/
theorem existsUnique_decomposes (document : Text) :
    ∃! parts : List Passage × Text, Decomposes document parts.1 parts.2 := by
  obtain ⟨passages, final, h⟩ := exists_decomposes document
  refine ⟨(passages, final), h, fun parts hparts ↦ ?_⟩
  obtain ⟨hpassages, hfinal⟩ := h.unique hparts
  exact Prod.ext hpassages hfinal

/-! ### What takes the place of directives -/

/-- What takes the place of a directive: the part of a file that its options select. The options are
read before the file. -/
def Passage.replacement (read : Text → Except Text Text) (passage : Passage) : Except Error Text :=
  match Options.parse passage.raw with
  | .error e => .error e
  | .ok options =>
    match read (Text.trim passage.target) with
    | .error reason => .error (.includeNotFound (Text.trim passage.target) reason)
    | .ok content => .ok (extract options content)

/-- The text around some directives with other texts in their place. -/
def fill : List Passage → List Text → Text → Text
  | passage :: passages, text :: texts, final => passage.gap ++ text ++ fill passages texts final
  | _, _, final => final

variable {read : Text → Except Text Text}

/-- The first directive of a document is replaced, and then what follows it is resolved. -/
theorem resolve_of_some {d : Directive} (hnext : nextDirective? document = some d) :
    resolve read document = do
      let text ← Passage.replacement read ⟨d.before, d.raw, d.target⟩
      let rest ← resolve read d.after
      return d.before ++ text ++ rest := by
  rw [resolve]
  split
  · rename_i hnone
    rw [hnext] at hnone
    cases hnone
  · rename_i found hsome
    obtain rfl : d = found := Option.some.inj (hnext.symm.trans hsome)
    rw [Passage.replacement]
    cases Options.parse d.raw with
    | error e => rfl
    | ok options =>
      dsimp only
      cases read (Text.trim d.target) with
      | error reason => rfl
      | ok content => cases resolve read d.after <;> rfl

/-- A document whose directives can all be replaced is resolved to the text around them with the
replacements in their place. -/
theorem Decomposes.resolve_eq (h : Decomposes document passages final) {texts : List Text}
    (htexts : List.Forall₂ (fun passage text ↦ passage.replacement read = .ok text)
      passages texts) : resolve read document = .ok (fill passages texts final) := by
  induction h generalizing texts with
  | last hfree =>
    cases htexts
    exact resolve_of_nextDirective?_eq_none (nextDirective?_eq_none_iff_isFree.mpr hfree) read
  | next hfirst _ ih =>
    cases htexts with
    | cons htext hrest =>
      rw [resolve_of_some hfirst.nextDirective?, htext, ih hrest, fill]
      rfl

/-- The first directive that cannot be replaced decides about the error. -/
theorem Decomposes.resolve_eq_error (h : Decomposes document passages final)
    {before after : List Passage} {failing : Passage} {e : Error}
    (hpassages : passages = before ++ failing :: after)
    (hbefore : ∀ passage ∈ before, ∃ text, passage.replacement read = .ok text)
    (hfailing : failing.replacement read = .error e) : resolve read document = .error e := by
  induction h generalizing before with
  | last => simp at hpassages
  | next hfirst _ ih =>
    rw [resolve_of_some hfirst.nextDirective?]
    cases before with
    | nil =>
      obtain ⟨rfl, -⟩ := List.cons.inj hpassages
      rw [hfailing]
      rfl
    | cons first before =>
      obtain ⟨rfl, hrest⟩ := List.cons.inj hpassages
      obtain ⟨text, htext⟩ := hbefore _ List.mem_cons_self
      rw [htext, ih hrest fun passage hpassage ↦ hbefore passage (List.mem_cons_of_mem _ hpassage)]
      rfl

/-- Some directives can all be replaced, or there is a first one that cannot. -/
theorem exists_replacements (read : Text → Except Text Text) (passages : List Passage) :
    (∃ texts, List.Forall₂ (fun passage text ↦ passage.replacement read = .ok text)
      passages texts) ∨
    ∃ before failing after e, passages = before ++ failing :: after ∧
      (∀ passage ∈ before, ∃ text, passage.replacement read = .ok text) ∧
      failing.replacement read = .error e := by
  induction passages with
  | nil => exact .inl ⟨[], .nil⟩
  | cons passage passages ih =>
    cases hpassage : passage.replacement read with
    | error e => exact .inr ⟨[], passage, passages, e, rfl, List.forall_mem_nil _, hpassage⟩
    | ok text =>
      rcases ih with ⟨texts, htexts⟩ | ⟨before, failing, after, e, rfl, hbefore, hfailing⟩
      · exact .inl ⟨text :: texts, .cons hpassage htexts⟩
      · exact .inr ⟨passage :: before, failing, after, e, rfl,
          List.forall_mem_cons.mpr ⟨⟨text, hpassage⟩, hbefore⟩, hfailing⟩

/-! ### Lines -/

theorem IsDirective.lineFeed_notMem {raw target : Text} (h : IsDirective raw target) :
    '\n' ∉ written raw target := by
  simp [written, h.raw.2, h.target.2]

/-- A directive at the start of a text lies in the first line. -/
theorem directive?_append_lineFeed (s t : Text) :
    directive? (s ++ '\n' :: t) =
      (directive? s).map fun (raw, target, rest) ↦ (raw, target, rest ++ '\n' :: t) := by
  cases hs : directive? s with
  | some found =>
    obtain ⟨raw, target, rest⟩ := found
    obtain ⟨hdirective, rfl⟩ := directive?_eq_some_iff_written.mp hs
    exact directive?_eq_some_iff_written.mpr ⟨hdirective, List.append_assoc _ _ _⟩
  | none =>
    refine Option.eq_none_iff_forall_ne_some.mpr fun ⟨raw, target, after⟩ hsome ↦ ?_
    obtain ⟨hdirective, hequal⟩ := directive?_eq_some_iff_written.mp hsome
    have hno (rest : Text) : s ≠ written raw target ++ rest := fun h ↦ by
      rw [directive?_eq_some_iff_written.mpr ⟨hdirective, h⟩] at hs
      cases hs
    rcases List.append_eq_append_iff.mp hequal with ⟨more, hwritten, hmore⟩ | ⟨rest, hrest, -⟩
    · cases more with
      | nil => exact hno [] (by rw [hwritten, List.append_nil, List.append_nil])
      | cons c more =>
        obtain ⟨rfl, -⟩ := List.cons.inj hmore
        exact hdirective.lineFeed_notMem (by rw [hwritten]; simp)
    · exact hno rest hrest

/-- The first directive of a text is that of the first line, or else that of what follows. -/
theorem nextDirective?_append_lineFeed (s t : Text) :
    nextDirective? (s ++ '\n' :: t) =
      match nextDirective? s with
      | some d => some { d with after := d.after ++ '\n' :: t }
      | none => (nextDirective? t).map fun d ↦ { d with before := s ++ '\n' :: d.before } := by
  induction s with
  | nil =>
    rw [List.nil_append, nextDirective?]
    rfl
  | cons c cs ih =>
    have hstart := directive?_append_lineFeed (c :: cs) t
    rw [List.cons_append] at hstart ⊢
    rw [nextDirective?, hstart, nextDirective?]
    cases directive? (c :: cs) with
    | some found => rfl
    | none =>
      dsimp only [Option.map_none]
      rw [ih]
      cases nextDirective? cs with
      | some d => rfl
      | none =>
        rw [Option.map_map]
        rfl

/-- Lines are resolved one after the other. -/
theorem resolve_append (read : Text → Except Text Text) (a b : Text) :
    resolve read (a ++ '\n' :: b) = do
      let first ← resolve read a
      let second ← resolve read b
      return first ++ '\n' :: second := by
  cases ha : nextDirective? a with
  | some d =>
    have hnext : nextDirective? (a ++ '\n' :: b) =
        some { d with after := d.after ++ '\n' :: b } := by
      rw [nextDirective?_append_lineFeed, ha]
    rw [resolve_of_some hnext, resolve_of_some ha, resolve_append read d.after b]
    simp only [bind_assoc, pure_bind, List.append_assoc]
  | none =>
    rw [resolve_of_nextDirective?_eq_none ha]
    have hnext := nextDirective?_append_lineFeed a b
    rw [ha] at hnext
    cases hb : nextDirective? b with
    | none =>
      rw [hb] at hnext
      rw [resolve_of_nextDirective?_eq_none hnext, resolve_of_nextDirective?_eq_none hb]
      rfl
    | some d =>
      rw [hb] at hnext
      -- What takes the place of a directive does not depend on the text in front of it.
      have hsame : Passage.replacement read ⟨a ++ '\n' :: d.before, d.raw, d.target⟩ =
          Passage.replacement read ⟨d.before, d.raw, d.target⟩ := rfl
      rw [resolve_of_some hnext, resolve_of_some hb, hsame]
      change _ = pure a >>= _
      simp only [bind_assoc, pure_bind, List.append_assoc, List.cons_append]
termination_by a.length
decreasing_by exact length_lt_of_nextDirective? ha

/-! ### The filter -/

/-- **Included files.** The filter for files changes nothing but the document, which decomposes in
exactly one way into its directives, taken from the left, and the text around them. Either each of
them is replaced, with its options read and its file found from the base directory, and the result
is the text around them with the replacements between, as they are; or the result is the error of
the first directive that cannot be replaced. Lines are resolved one after the other. -/
theorem run_inclusion {ω σ : Type} (host : Host ω σ) (base document : Text) (scene : Scene ω) :
    let filter : Filter σ := .inclusion base
    let read (target : Text) := host.readText scene.world (Path.join base target)
    (filter.run host document).outcome scene = (.ok (resolve read document, filter), scene) ∧
    (∃! parts : List Passage × Text, Decomposes document parts.1 parts.2) ∧
    (∀ passages final, Decomposes document passages final →
      (∃ texts, List.Forall₂ (fun passage text ↦ passage.replacement read = .ok text)
          passages texts ∧ resolve read document = .ok (fill passages texts final)) ∨
        ∃ before failing after e, passages = before ++ failing :: after ∧
          (∀ passage ∈ before, ∃ text, passage.replacement read = .ok text) ∧
          failing.replacement read = .error e ∧ resolve read document = .error e) ∧
    ∀ a b, document = a ++ '\n' :: b → resolve read document = do
      let first ← resolve read a
      let second ← resolve read b
      return first ++ '\n' :: second := by
  intro filter read
  refine ⟨rfl, existsUnique_decomposes document, fun passages final hparts ↦ ?_,
    fun a b hdocument ↦ by rw [hdocument, resolve_append]⟩
  rcases exists_replacements read passages with
    ⟨texts, htexts⟩ | ⟨before, failing, after, e, hpassages, hbefore, hfailing⟩
  · exact .inl ⟨texts, htexts, hparts.resolve_eq htexts⟩
  · exact .inr ⟨before, failing, after, e, hpassages, hbefore, hfailing,
      hparts.resolve_eq_error hpassages hbefore hfailing⟩

/-- What is put in the place of a directive may look like one, and an opening bracket that is closed
on another line starts none. -/
example : resolve (fun _ ↦ .ok "@[](b)\n".toList) "@[a\n](b) @[](a)".toList =
    .ok "@[a\n](b) @[](b)".toList := by cbv

end Include

end Weave
