import Mathlib.Algebra.Group.Nat.Even
import Mathlib.Data.List.TakeWhile
import Weave.Proofs.Insertion

/-!
# The entries of a table of contents

A table of contents has one line for each heading of its document, in the order in which they stand
there. Which lines of the document are headings is said of each of them by itself: what the line
looks like, and how many lines before it start like a fence. The titles may hold any text, also the
marker that the table takes the place of: only the first marker of the document itself is replaced.

## Main definitions

* `Weave.Heading.StartsFence`: a line that starts like a fence.
* `Weave.Heading.Place`, `Weave.Heading.Place.StandsIn`: a heading and the number of its line.
* `Weave.Contents.entry`: the line for a heading.

## Main results

* `Weave.Heading.ofLine?_eq_some_iff`: which lines are headings.
* `Weave.Heading.exists_places`: the headings that are found are those that stand in the lines.
* `Weave.Contents.insert_lists`: what the table of contents of a document lists.
-/

namespace Weave

namespace Heading

/-! ### Single lines -/

/-- A line that starts, behind blanks, with three backquotes or three tildes. -/
def StartsFence (line : Text) : Prop :=
  ∃ blanks mark rest, line = blanks ++ mark ++ rest ∧ (∀ c ∈ blanks, Text.isBlank c = true) ∧
    (mark = Fence.ticks ∨ mark = ['~', '~', '~'])

theorem isFenceLine_iff {line : Text} : isFenceLine line = true ↔ StartsFence line := by
  constructor
  · intro h
    have hblank := List.all_eq_true.mp (List.all_takeWhile (p := Text.isBlank) (l := line))
    have hline : line = line.takeWhile Text.isBlank ++ Text.trimStart line :=
      List.takeWhile_append_dropWhile.symm
    generalize line.takeWhile Text.isBlank = blanks at hblank hline
    unfold isFenceLine at h
    split at h
    · rw [‹Text.trimStart line = _›] at hline
      exact ⟨blanks, Fence.ticks, _, by rw [hline, List.append_assoc]; rfl, hblank, .inl rfl⟩
    · rw [‹Text.trimStart line = _›] at hline
      exact ⟨blanks, ['~', '~', '~'], _, by rw [hline, List.append_assoc]; rfl, hblank, .inr rfl⟩
    · cases h
  · rintro ⟨blanks, mark, rest, rfl, hblank, rfl | rfl⟩
    · rw [isFenceLine, List.append_assoc, Text.trimStart_append hblank]
      rfl
    · rw [isFenceLine, List.append_assoc, Text.trimStart_append hblank]
      rfl

instance (line : Text) : Decidable (StartsFence line) := decidable_of_iff _ isFenceLine_iff

theorem takeWhile_signs (level : Nat) (text : Text) :
    (List.replicate level '#' ++ ' ' :: text).takeWhile (· = '#') = List.replicate level '#' := by
  rw [List.takeWhile_append_of_pos (by simp), List.takeWhile_cons_of_neg (by decide),
    List.append_nil]

theorem dropWhile_signs (level : Nat) (text : Text) :
    (List.replicate level '#' ++ ' ' :: text).dropWhile (· = '#') = ' ' :: text := by
  rw [List.dropWhile_append_of_pos (by simp), List.dropWhile_cons_of_neg (by decide)]

/-- A heading is a line of one to five number signs, a space and its title with blanks behind it. -/
theorem ofLine?_eq_some_iff {line : Text} {heading : Heading} (hfeed : '\n' ∉ line) :
    ofLine? line = some heading ↔ ∃ text, line = List.replicate heading.level '#' ++ ' ' :: text ∧
      1 ≤ heading.level ∧ heading.level ≤ 5 ∧ heading.title = Text.trimEnd text := by
  constructor
  · intro h
    simp only [ofLine?] at h
    split at h
    · rename_i text hdrop
      simp only [Option.ite_none_right_eq_some, Option.some.injEq] at h
      obtain ⟨⟨hlow, hhigh, -⟩, rfl⟩ := h
      refine ⟨text, ?_, hlow, hhigh, rfl⟩
      have hall : ∀ c ∈ line.takeWhile (· = '#'), c = '#' := fun c hc ↦ by
        simpa using List.mem_takeWhile_imp hc
      have hsigns := List.eq_replicate_iff.mpr ⟨rfl, hall⟩
      rw [← hdrop, ← hsigns, List.takeWhile_append_dropWhile]
    · cases h
  · rintro ⟨text, rfl, hlow, hhigh, htitle⟩
    have htext : '\n' ∉ text := fun hmem ↦ hfeed (by simp [hmem])
    simp only [ofLine?, takeWhile_signs, dropWhile_signs, List.length_replicate]
    rw [if_pos ⟨hlow, hhigh, htext⟩, ← htitle]

/-- A line that starts with number signs starts no fence. -/
theorem isFenceLine_signs {level : Nat} (hlow : 1 ≤ level) (text : Text) :
    isFenceLine (List.replicate level '#' ++ text) = false := by
  obtain ⟨n, rfl⟩ := Nat.exists_eq_add_of_le' hlow
  rw [isFenceLine, List.replicate_succ, List.cons_append, Text.trimStart,
    Text.trimStartWhere_cons_of_not (by decide)]
  rfl

/-- The last line is a heading, unless it is code. -/
theorem collect_singleton {line : Text} (hfeed : '\n' ∉ line) (inFence : Bool) :
    collect inFence [line] = if inFence then [] else (ofLine? line).toList := by
  cases hheading : ofLine? line with
  | none => simp [collect, hheading]
  | some heading =>
    obtain ⟨text, rfl, hlow, -⟩ := (ofLine?_eq_some_iff hfeed).mp hheading
    rw [collect, isFenceLine_signs hlow, hheading]
    cases inFence <;> rfl

/-- Number signs are told from the text behind their space. -/
theorem signs_inj {level level' : Nat} {text text' : Text}
    (h : List.replicate level '#' ++ ' ' :: text = List.replicate level' '#' ++ ' ' :: text') :
    level = level' ∧ text = text' := by
  have hsigns := congrArg (fun line ↦ (line.takeWhile (· = '#')).length) h
  have htext := congrArg (List.dropWhile (· = '#')) h
  rw [dropWhile_signs, dropWhile_signs, List.cons_inj_right] at htext
  simp only [takeWhile_signs, List.length_replicate] at hsigns
  exact ⟨hsigns, htext⟩

/-! ### The lines of a document -/

/-- A heading in a document: the number of its line, counted from nought, the number of its signs,
and the text behind them. -/
structure Place where
  line : Nat
  level : Nat
  text : Text

/-- The heading without its place. -/
def Place.heading (place : Place) : Heading := ⟨place.level, Text.trimEnd place.text⟩

/-- The line is there, and an even number of lines before it start like a fence. -/
structure Place.StandsIn (place : Place) (ls : List Text) : Prop where
  line : ls[place.line]? = some (List.replicate place.level '#' ++ ' ' :: place.text)
  low : 1 ≤ place.level
  high : place.level ≤ 5
  outside : Even ((ls.take place.line).countP fun line ↦ StartsFence line)

/-- What follows some lines is text exactly if an even number of them start like a fence. -/
theorem after_eq_false_iff (ls : List Text) :
    after false ls = false ↔ Even (ls.countP fun line ↦ StartsFence line) := by
  induction ls using List.reverseRecOn with
  | nil => simp [after]
  | append_singleton ls line ih =>
    rw [after, List.foldl_concat, ← after, List.countP_append, List.countP_singleton]
    by_cases hline : StartsFence line
    · rw [isFenceLine_iff.mpr hline, Bool.xor_true, Bool.not_eq_false', ← Bool.not_eq_false, ih]
      simp [hline, Nat.even_add_one]
    · rw [Bool.eq_false_iff.mpr (mt isFenceLine_iff.mp hline), Bool.xor_false, ih]
      simp [hline]

/-- Behind a last line the headings are those before it, and the line itself if it is one. -/
theorem standsIn_concat_iff {place : Place} {ls : List Text} {line : Text} :
    place.StandsIn (ls ++ [line]) ↔ place.StandsIn ls ∨ place.line = ls.length ∧
      line = List.replicate place.level '#' ++ ' ' :: place.text ∧
      1 ≤ place.level ∧ place.level ≤ 5 ∧ Even (ls.countP fun line ↦ StartsFence line) := by
  rcases lt_trichotomy place.line ls.length with hlt | heq | hgt
  · have hsame : place.StandsIn (ls ++ [line]) ↔ place.StandsIn ls := by
      constructor
      · rintro ⟨hline, hlow, hhigh, houtside⟩
        rw [List.getElem?_append_left hlt] at hline
        rw [List.take_append_of_le_length hlt.le] at houtside
        exact ⟨hline, hlow, hhigh, houtside⟩
      · rintro ⟨hline, hlow, hhigh, houtside⟩
        rw [← List.getElem?_append_left hlt] at hline
        rw [← List.take_append_of_le_length hlt.le] at houtside
        exact ⟨hline, hlow, hhigh, houtside⟩
    rw [hsame]
    simp [hlt.ne]
  · have hnone : ¬place.StandsIn ls := fun h ↦ by
      have := h.line
      rw [heq, List.getElem?_eq_none le_rfl] at this
      cases this
    constructor
    · rintro ⟨hline, hlow, hhigh, houtside⟩
      rw [heq, List.getElem?_concat_length, Option.some.injEq] at hline
      rw [heq, List.take_left] at houtside
      exact .inr ⟨heq, hline, hlow, hhigh, houtside⟩
    · rintro (h | ⟨-, rfl, hlow, hhigh, houtside⟩)
      · exact absurd h hnone
      · exact ⟨by rw [heq, List.getElem?_concat_length], hlow, hhigh,
          by rwa [heq, List.take_left]⟩
  · have hnone (ls' : List Text) (h : ls'.length ≤ place.line) : ¬place.StandsIn ls' := fun hs ↦ by
      have := hs.line
      rw [List.getElem?_eq_none h] at this
      cases this
    refine iff_of_false (hnone _ (by rw [List.length_append]; exact hgt)) ?_
    rintro (h | h)
    · exact hnone _ hgt.le h
    · omega

/-- The headings that are found in some lines are those that stand in them, in order. -/
theorem exists_places {ls : List Text} (hfeed : ∀ line ∈ ls, '\n' ∉ line) :
    ∃ places : List Place, places.Pairwise (fun place later ↦ place.line < later.line) ∧
      (∀ place, place ∈ places ↔ place.StandsIn ls) ∧
      collect false ls = places.map Place.heading := by
  induction ls using List.reverseRecOn with
  | nil =>
    refine ⟨[], .nil, fun place ↦ ?_, rfl⟩
    exact iff_of_false List.not_mem_nil fun h ↦ by simpa using h.line
  | append_singleton ls line ih =>
    rw [List.forall_mem_append, List.forall_mem_singleton] at hfeed
    obtain ⟨places, hsorted, hmem, hcollect⟩ := ih hfeed.1
    rw [collect_append, collect_singleton hfeed.2, hcollect]
    by_cases hnew : after false ls = false ∧ (ofLine? line).isSome
    · obtain ⟨houtside, hsome⟩ := hnew
      obtain ⟨heading, hheading⟩ := Option.isSome_iff_exists.mp hsome
      obtain ⟨text, rfl, hlow, hhigh, htitle⟩ := (ofLine?_eq_some_iff hfeed.2).mp hheading
      refine ⟨places ++ [⟨ls.length, heading.level, text⟩], ?_, fun place ↦ ?_, ?_⟩
      · refine List.pairwise_append.mpr ⟨hsorted, List.pairwise_singleton _ _, ?_⟩
        rintro place hplace _ hlast
        rw [List.mem_singleton.mp hlast]
        exact (List.getElem?_eq_some_iff.mp ((hmem place).mp hplace).line).1
      · rw [standsIn_concat_iff, List.mem_append, hmem, List.mem_singleton]
        refine or_congr_right ⟨?_, ?_⟩
        · rintro rfl
          exact ⟨rfl, rfl, hlow, hhigh, (after_eq_false_iff ls).mp houtside⟩
        · rintro ⟨hline, hsame, -, -, -⟩
          obtain ⟨hlevel, htext⟩ := signs_inj hsame
          cases place
          simp only [Place.mk.injEq]
          exact ⟨hline, hlevel.symm, htext.symm⟩
      · rw [houtside, hheading, List.map_append, List.map_singleton, Place.heading, ← htitle]
        rfl
    · refine ⟨places, hsorted, fun place ↦ ?_, ?_⟩
      · rw [standsIn_concat_iff, hmem, iff_self_or]
        rintro ⟨-, hline, hlow, hhigh, houtside⟩
        have hheading : ofLine? line = some place.heading :=
          (ofLine?_eq_some_iff hfeed.2).mpr ⟨place.text, hline, hlow, hhigh, rfl⟩
        exact absurd ⟨(after_eq_false_iff ls).mpr houtside, by rw [hheading]; rfl⟩ hnew
      · cases houtside : after false ls with
        | true => simp
        | false =>
          have hnone : ofLine? line = none := by simpa [houtside] using hnew
          simp [hnone]

end Heading

namespace Contents

/-! ### The table -/

/-- The line of the table for a heading. -/
def entry (place : Heading.Place) : Text :=
  List.replicate (place.level - 1) '\t' ++ "* [".toList ++ Text.trimEnd place.text ++
    "](#".toList ++ Heading.slug (Text.trimEnd place.text) ++ ")\n".toList

theorem render_map_heading (places : List Heading.Place) :
    render (places.map Heading.Place.heading) = places.flatMap entry :=
  List.flatMap_map ..

/-- Lines with line feeds are the lines of the text that they make up. -/
theorem brokenLines_flatten_of_lines {ls : List Text}
    (h : ∀ line ∈ ls, ∃ t, line = t ++ ['\n'] ∧ '\n' ∉ t) : Text.brokenLines ls.flatten = ls := by
  induction ls with
  | nil => rfl
  | cons line ls ih =>
    obtain ⟨⟨t, rfl, ht⟩, hls⟩ := List.forall_mem_cons.mp h
    rw [List.flatten_cons, Text.brokenLines_append (Text.endsLine_append_lineFeed t), ih hls,
      Text.brokenLines_append_lineFeed ht]
    rfl

/-- The first marker is replaced. -/
theorem exists_insert_eq {document : Text} (h : marker <:+: document) :
    ∃ before rest, document = before ++ marker ++ rest ∧ ¬marker <:+: before ∧
      insert document = before ++ render (Heading.find document) ++ rest := by
  cases hbreak : Text.breakOn? marker document with
  | none => exact absurd h (Text.breakOn?_eq_none_iff.mp hbreak)
  | some found =>
    obtain ⟨before, rest⟩ := found
    obtain ⟨hdocument, hbefore⟩ := (Text.breakOn?_eq_some_iff (by decide) (by decide)).mp hbreak
    exact ⟨before, rest, hdocument, hbefore, by rw [insert, Text.replaceFirst, hbreak]⟩

/-- **What a table of contents lists.** A document without a marker stays as it is. In any other one
the first marker is replaced by one line for each heading of the document, in the order of their
places, and a heading is any line of one to five number signs, a space and a text that has an even
number of lines before it that start like a fence. -/
theorem insert_lists (document : Text) : ∃ places : List Heading.Place,
    places.Pairwise (fun place later ↦ place.line < later.line) ∧
    (∀ place, place ∈ places ↔ place.StandsIn (Text.lines document)) ∧
    Text.brokenLines (places.flatMap entry) = places.map entry ∧
    (¬marker <:+: document → insert document = document) ∧
    (marker <:+: document → ∃ before rest, document = before ++ marker ++ rest ∧
      ¬marker <:+: before ∧ insert document = before ++ places.flatMap entry ++ rest) := by
  obtain ⟨places, hsorted, hmem, hfind⟩ :=
    Heading.exists_places fun line hline ↦ Text.lineFeed_notMem_of_mem_lines (t := document) hline
  rw [← Heading.find] at hfind
  refine ⟨places, hsorted, hmem, ?_, fun hmarker ↦ ?_, fun hmarker ↦ ?_⟩
  · rw [List.flatMap_def]
    refine brokenLines_flatten_of_lines (List.forall_mem_map.mpr fun place hplace ↦ ?_)
    have hheading : place.heading ∈ Heading.find document :=
      hfind ▸ List.mem_map_of_mem hplace
    exact item_eq (lineFeed_notMem_title hheading)
  · exact insert_of_holds_marker (Bool.eq_false_iff.mpr (mt Text.holds_eq_true_iff.mp hmarker))
  · rw [← render_map_heading, ← hfind]
    exact exists_insert_eq hmarker

/-- A title that holds the marker is listed with it. -/
example : insert "[TOC]\n## A [TOC] \n~~~\n# b\n".toList =
    "\t* [A [TOC]](#a-[toc])\n\n## A [TOC] \n~~~\n# b\n".toList := by decide +kernel

end Contents

end Weave
