import Mathlib.Data.List.TakeWhile
import Weave.Document.Include
import Weave.Proofs.Occurrence

/-!
# Selected parts of files

The part of a file that a directive selects is said of the lines of the file. It starts behind the
first line that holds the one marker, and ends before the next line that holds the other one. Each
marker may be missing from the options, and then the part starts with the file or ends with it. It
may also be missing from the lines: without a line that holds the first marker nothing is selected,
and without one that holds the second marker the part ends with the file.

## Main definitions

* `Weave.Include.StartsBehind`, `Weave.Include.EndsBefore`: what each of the markers selects.
* `Weave.Include.Selects`: what the options select.

## Main results

* `Weave.Include.selects_iff`: the relation and the function.
* `Weave.Include.extract_selects`: what is put in the place of a directive.
-/

namespace Weave.Include

/-! ### The two markers -/

/-- The lines behind the first one that holds a marker. -/
inductive StartsBehind : Option Text → List Text → List Text → Prop
  | unmarked (ls : List Text) : StartsBehind none ls ls
  | found {ini line : Text} {front : List Text} (rest : List Text)
      (hfront : ∀ l ∈ front, ¬ini <:+: l) (hline : ini <:+: line) :
      StartsBehind (some ini) (front ++ line :: rest) rest
  | missing {ini : Text} {ls : List Text} (h : ∀ l ∈ ls, ¬ini <:+: l) :
      StartsBehind (some ini) ls []

/-- The lines before the first one that holds a marker. -/
inductive EndsBefore : Option Text → List Text → List Text → Prop
  | unmarked (ls : List Text) : EndsBefore none ls ls
  | found {fin line : Text} {front : List Text} (rest : List Text)
      (hfront : ∀ l ∈ front, ¬fin <:+: l) (hline : fin <:+: line) :
      EndsBefore (some fin) (front ++ line :: rest) front
  | missing {fin : Text} {ls : List Text} (h : ∀ l ∈ ls, ¬fin <:+: l) :
      EndsBefore (some fin) ls ls

/-- The lines that the options select. -/
def Selects (options : Options) (ls selection : List Text) : Prop :=
  ∃ inside, StartsBehind options.ini ls inside ∧ EndsBefore options.fin inside selection

variable {marker line : Text} {ls inside selection : List Text}

theorem not_holdsMarker_iff : (!holdsMarker marker line) = true ↔ ¬marker <:+: line := by
  rw [Bool.not_eq_true', ← Text.holds_eq_true_iff, Bool.not_eq_true, holdsMarker]

/-- Some lines do not hold a marker, or there is a first one that does. -/
theorem exists_first (marker : Text) (ls : List Text) :
    (∀ l ∈ ls, ¬marker <:+: l) ∨ ∃ front line rest, ls = front ++ line :: rest ∧
      (∀ l ∈ front, ¬marker <:+: l) ∧ marker <:+: line := by
  cases hfind : ls.find? (holdsMarker marker) with
  | none =>
    refine .inl fun l hl ↦ not_holdsMarker_iff.mp ?_
    simpa using List.find?_eq_none.mp hfind l hl
  | some line =>
    obtain ⟨hline, front, rest, rfl, hfront⟩ := List.find?_eq_some_iff_append.mp hfind
    exact .inr ⟨front, line, rest, rfl, fun l hl ↦ not_holdsMarker_iff.mp (hfront l hl),
      Text.holds_eq_true_iff.mp hline⟩

theorem exists_startsBehind (ini : Option Text) (ls : List Text) :
    ∃ inside, StartsBehind ini ls inside := by
  cases ini with
  | none => exact ⟨ls, .unmarked ls⟩
  | some ini =>
    obtain hnone | ⟨front, line, rest, rfl, hfront, hline⟩ := exists_first ini ls
    · exact ⟨[], .missing hnone⟩
    · exact ⟨rest, .found rest hfront hline⟩

theorem exists_endsBefore (fin : Option Text) (ls : List Text) :
    ∃ selection, EndsBefore fin ls selection := by
  cases fin with
  | none => exact ⟨ls, .unmarked ls⟩
  | some fin =>
    obtain hnone | ⟨front, line, rest, rfl, hfront, hline⟩ := exists_first fin ls
    · exact ⟨ls, .missing hnone⟩
    · exact ⟨front, .found rest hfront hline⟩

/-! ### The selection -/

theorem StartsBehind.eq_self (h : StartsBehind none ls inside) : inside = ls := by
  cases h
  rfl

theorem EndsBefore.eq_self (h : EndsBefore none ls selection) : selection = ls := by
  cases h
  rfl

/-- The lines behind the first one that holds a marker are left when those before it and the line
itself are passed over. -/
theorem StartsBehind.eq_drop (h : StartsBehind (some marker) ls inside) :
    inside = (ls.dropWhile fun l ↦ !holdsMarker marker l).drop 1 := by
  cases h with
  | @found _ line front rest hfront hline =>
    have hstop : ¬(!holdsMarker marker line) = true := fun h ↦ not_holdsMarker_iff.mp h hline
    rw [List.dropWhile_append_of_pos fun l hl ↦ not_holdsMarker_iff.mpr (hfront l hl),
      List.dropWhile_cons, if_neg hstop, List.drop_one, List.tail_cons]
  | missing h =>
    rw [List.dropWhile_eq_nil_iff.mpr fun l hl ↦ not_holdsMarker_iff.mpr (h l hl), List.drop_nil]

/-- The lines before the first one that holds a marker are taken. -/
theorem EndsBefore.eq_takeWhile (h : EndsBefore (some marker) ls selection) :
    selection = ls.takeWhile fun l ↦ !holdsMarker marker l := by
  cases h with
  | @found _ line front rest hfront hline =>
    have hstop : ¬(!holdsMarker marker line) = true := fun h ↦ not_holdsMarker_iff.mp h hline
    rw [List.takeWhile_append_of_pos fun l hl ↦ not_holdsMarker_iff.mpr (hfront l hl),
      List.takeWhile_cons, if_neg hstop, List.append_nil]
  | missing h =>
    exact (List.takeWhile_eq_self_iff.mpr fun l hl ↦ not_holdsMarker_iff.mpr (h l hl)).symm

/-- The function selects what the options select. -/
theorem Selects.eq_select {options : Options} (h : Selects options ls selection) :
    selection = select options ls := by
  obtain ⟨ini, fin⟩ := options
  obtain ⟨inside, hstarts, hends⟩ := h
  cases ini with
  | none =>
    obtain rfl := hstarts.eq_self
    cases fin with
    | none => exact hends.eq_self
    | some fin => exact hends.eq_takeWhile
  | some ini =>
    obtain rfl := hstarts.eq_drop
    cases fin with
    | none => exact hends.eq_self
    | some fin => exact hends.eq_takeWhile

/-- The options select exactly what the function selects. -/
theorem selects_iff {options : Options} :
    Selects options ls selection ↔ selection = select options ls := by
  refine ⟨Selects.eq_select, fun hselect ↦ ?_⟩
  obtain ⟨inside, hstarts⟩ := exists_startsBehind options.ini ls
  obtain ⟨found, hends⟩ := exists_endsBefore options.fin inside
  have h : Selects options ls found := ⟨inside, hstarts, hends⟩
  rwa [hselect, ← h.eq_select]

theorem StartsBehind.isSuffix {ini : Option Text} (h : StartsBehind ini ls inside) :
    inside <:+ ls := by
  cases h with
  | unmarked => exact List.suffix_rfl
  | @found ini line front rest => exact ⟨front ++ [line], by simp⟩
  | missing => exact List.nil_suffix

theorem EndsBefore.isPrefix {fin : Option Text} (h : EndsBefore fin ls selection) :
    selection <+: ls := by
  cases h with
  | unmarked => exact List.prefix_rfl
  | found => exact List.prefix_append _ _
  | missing => exact List.prefix_rfl

/-- What is selected are successive lines. -/
theorem Selects.isInfix {options : Options} (h : Selects options ls selection) :
    selection <:+: ls := by
  obtain ⟨inside, hstarts, hends⟩ := h
  exact hends.isPrefix.isInfix.trans hstarts.isSuffix.isInfix

/-! ### The extracted text -/

/-- A text loses one line feed at its end, or has none there and stays as it is. -/
theorem dropFinalBreak_cases (t : Text) :
    t = dropFinalBreak t ++ ['\n'] ∨ dropFinalBreak t = t ∧ ¬['\n'] <:+ t := by
  unfold dropFinalBreak
  split
  · rename_i hlast
    obtain ⟨front, rfl⟩ := List.getLast?_eq_some_iff.mp hlast
    exact .inl (by rw [List.dropLast_concat])
  · rename_i hlast
    refine .inr ⟨rfl, ?_⟩
    rintro ⟨front, rfl⟩
    exact hlast (List.getLast?_concat)

/-- **Parts of files.** The options select some lines of a file in exactly one way: those behind the
first line that holds the one marker, before the next one that holds the other marker. What is
extracted is the text of these lines without one line feed at its end, and nothing else is dropped;
it is a part of the content as it stands. -/
theorem extract_selects (options : Options) (content : Text) :
    (∃! selection, Selects options (Text.brokenLines content) selection) ∧
    ∀ selection, Selects options (Text.brokenLines content) selection →
      (selection.flatten = extract options content ++ ['\n'] ∨
        extract options content = selection.flatten ∧ ¬['\n'] <:+ selection.flatten) ∧
      extract options content <:+: content := by
  refine ⟨⟨_, selects_iff.mpr rfl, fun selection h ↦ selects_iff.mp h⟩, fun selection h ↦ ?_⟩
  have hextract : extract options content = dropFinalBreak selection.flatten := by
    rw [extract, selects_iff.mp h]
  have hcases := dropFinalBreak_cases selection.flatten
  rw [← hextract] at hcases
  refine ⟨hcases, ?_⟩
  obtain ⟨front, back, hlines⟩ := h.isInfix
  have hselection : selection.flatten <:+: content :=
    ⟨front.flatten, back.flatten, by
      rw [← List.flatten_append, ← List.flatten_append, hlines, Text.flatten_brokenLines]⟩
  obtain hbreak | ⟨hsame, -⟩ := hcases
  · exact (hbreak ▸ List.prefix_append _ _ : extract options content <+: _).isInfix.trans hselection
  · rwa [hsame]

/-- The line of the first marker is not searched for the second one, which is part of it here; the
carriage return before the line feed stays. -/
example : extract ⟨some "ab".toList, some "a".toList⟩ "ab\nb\r\n\ncab".toList =
    "b\r\n".toList := by cbv

end Weave.Include
