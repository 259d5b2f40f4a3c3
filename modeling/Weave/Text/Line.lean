import Weave.Text.Basic

/-!
# Lines

A text divides into lines at its line feeds, either with the line feeds kept or without them.

## Main definitions

* `Weave.Text.brokenLines`: the lines, each with its line feed.
* `Weave.Text.endsLine`: whether what follows a text starts a line.
* `Weave.Text.lines`: the lines without their line ends.

## Main results

* `Weave.Text.flatten_brokenLines`: the lines with their line feeds are the text.
* `Weave.Text.brokenLines_append`: two texts, the first of which ends its last line, have the lines
  of both.
* `Weave.Text.brokenLines_flatten_left`, `Weave.Text.brokenLines_flatten_right`: successive lines of
  a text are the lines of the text that they make up.
-/

namespace Weave.Text

/-- The lines of a text, each with the line feed that ends it; the last one may have none. -/
def brokenLines : Text → List Text
  | [] => []
  | c :: cs =>
    if c = '\n' then [c] :: brokenLines cs
    else
      match brokenLines cs with
      | [] => [[c]]
      | line :: rest => (c :: line) :: rest

/-- The lines with their line feeds are the text. -/
theorem flatten_brokenLines (t : Text) : (brokenLines t).flatten = t := by
  induction t with
  | nil => rfl
  | cons c cs ih =>
    rw [brokenLines]
    split
    · simp [ih]
    · cases hrest : brokenLines cs with
      | nil => rw [hrest] at ih; simpa using ih
      | cons line rest => rw [hrest] at ih; simpa using ih

/-- The lines of several texts are these texts one after the other. -/
theorem flatten_flatMap_brokenLines (ts : List Text) :
    (ts.flatMap brokenLines).flatten = ts.flatten := by
  induction ts with
  | nil => rfl
  | cons t ts ih => rw [List.flatMap_cons, List.flatten_append, flatten_brokenLines, ih]; rfl

/-- No line is empty. -/
theorem ne_nil_of_mem_brokenLines {t line : Text} (h : line ∈ brokenLines t) : line ≠ [] := by
  induction t generalizing line with
  | nil => simp [brokenLines] at h
  | cons c cs ih =>
    rw [brokenLines] at h
    split at h
    · rcases List.mem_cons.mp h with rfl | h
      · simp
      · exact ih h
    · cases hrest : brokenLines cs with
      | nil => simp only [hrest, List.mem_singleton] at h; simp [h]
      | cons first rest =>
        rw [hrest] at h
        rcases List.mem_cons.mp h with rfl | h
        · simp
        · exact ih (by rw [hrest]; exact List.mem_cons_of_mem _ h)

/-- The lines of a text hold its characters. -/
theorem mem_of_mem_brokenLines {t line : Text} {c : Char} (h : line ∈ brokenLines t)
    (hc : c ∈ line) : c ∈ t := by
  rw [← flatten_brokenLines t]
  exact List.mem_flatten_of_mem h hc

/-- A line holds no line feed but the one that ends it. -/
theorem exists_of_mem_brokenLines {t line : Text} (h : line ∈ brokenLines t) :
    ∃ u, '\n' ∉ u ∧ (line = u ∨ line = u ++ ['\n']) := by
  induction t generalizing line with
  | nil => cases h
  | cons c cs ih =>
    rw [brokenLines] at h
    by_cases hc : c = '\n'
    · rw [if_pos hc] at h
      rcases List.mem_cons.mp h with rfl | h
      · exact ⟨[], List.not_mem_nil, .inr (by rw [hc]; rfl)⟩
      · exact ih h
    · rw [if_neg hc] at h
      cases hrest : brokenLines cs with
      | nil =>
        rw [hrest] at h
        exact ⟨[c], by simpa using Ne.symm hc, .inl (List.mem_singleton.mp h)⟩
      | cons first rest =>
        rw [hrest] at h ih
        rcases List.mem_cons.mp h with rfl | h
        · obtain ⟨u, hu, hfirst⟩ := ih List.mem_cons_self
          refine ⟨c :: u, by simp [Ne.symm hc, hu], ?_⟩
          rcases hfirst with rfl | rfl
          · exact .inl rfl
          · exact .inr rfl
        · exact ih (List.mem_cons_of_mem _ h)

@[simp] theorem brokenLines_nil : brokenLines [] = [] := rfl

theorem brokenLines_eq_nil_iff {t : Text} : brokenLines t = [] ↔ t = [] := by
  refine ⟨fun h ↦ ?_, fun h ↦ by rw [h]; rfl⟩
  rw [← flatten_brokenLines t, h, List.flatten_nil]

/-- Whether a text is empty or ends with a line feed, so that what follows it starts a line. -/
def endsLine (t : Text) : Bool := t.getLast?.all (· = '\n')

@[simp] theorem endsLine_nil : endsLine [] = true := rfl

theorem endsLine_cons {c : Char} {cs : Text} (h : cs ≠ []) : endsLine (c :: cs) = endsLine cs := by
  rw [endsLine, List.getLast?_cons_of_ne_nil h, endsLine]

theorem endsLine_append {s t : Text} (h : t ≠ []) : endsLine (s ++ t) = endsLine t := by
  obtain ⟨c, hc⟩ := Option.isSome_iff_exists.mp (List.getLast?_isSome.mpr h)
  rw [endsLine, endsLine, List.getLast?_append, hc, Option.some_or]

theorem lineFeed_mem_of_endsLine {t : Text} (h : endsLine t = true) (hne : t ≠ []) : '\n' ∈ t := by
  obtain ⟨c, hc⟩ := Option.isSome_iff_exists.mp (List.getLast?_isSome.mpr hne)
  obtain rfl : c = '\n' := by simpa [endsLine, hc] using h
  exact List.mem_of_getLast? hc

/-- Two texts, the first of which ends its last line, have the lines of both. -/
theorem brokenLines_append {s : Text} (h : endsLine s = true) (t : Text) :
    brokenLines (s ++ t) = brokenLines s ++ brokenLines t := by
  induction s with
  | nil => rfl
  | cons c cs ih =>
    rw [List.cons_append, brokenLines, brokenLines]
    by_cases hc : c = '\n'
    · have hcs : endsLine cs = true := by
        by_cases hnil : cs = []
        · rw [hnil]; rfl
        · rwa [endsLine_cons hnil] at h
      rw [if_pos hc, if_pos hc, ih hcs, List.cons_append]
    · have hnil : cs ≠ [] := fun hnil ↦ hc (by simpa [hnil, endsLine] using h)
      rw [endsLine_cons hnil] at h
      rw [if_neg hc, if_neg hc, ih h]
      cases hlines : brokenLines cs with
      | nil => exact absurd (brokenLines_eq_nil_iff.mp hlines) hnil
      | cons line rest => rfl

/-- A text without line feeds is one line. -/
theorem brokenLines_of_lineFeed_notMem {t : Text} (h : '\n' ∉ t) (hne : t ≠ []) :
    brokenLines t = [t] := by
  induction t with
  | nil => exact absurd rfl hne
  | cons c cs ih =>
    obtain ⟨hc, hcs⟩ : '\n' ≠ c ∧ '\n' ∉ cs := by simpa using h
    rw [brokenLines, if_neg hc.symm]
    cases cs with
    | nil => rfl
    | cons d ds => rw [ih hcs (by simp)]

/-- A text without line feeds and a line feed are one line. -/
theorem brokenLines_append_lineFeed {t : Text} (h : '\n' ∉ t) :
    brokenLines (t ++ ['\n']) = [t ++ ['\n']] := by
  induction t with
  | nil => rfl
  | cons c cs ih =>
    have hc : ¬c = '\n' := fun hc ↦ h (hc ▸ List.mem_cons_self)
    rw [List.cons_append, brokenLines, if_neg hc, ih fun hcs ↦ h (List.mem_cons_of_mem _ hcs)]

theorem endsLine_append_lineFeed (t : Text) : endsLine (t ++ ['\n']) = true := by
  simp [endsLine]

/-- The lines of a text that other lines follow end their last line. -/
theorem endsLine_flatten {t : Text} {ls rest : List Text} (h : brokenLines t = ls ++ rest)
    (hrest : rest ≠ []) : endsLine ls.flatten = true := by
  induction t generalizing ls with
  | nil => exact absurd (List.append_eq_nil_iff.mp h.symm).2 hrest
  | cons c cs ih =>
    cases ls with
    | nil => rfl
    | cons l ls =>
      rw [brokenLines, List.cons_append] at h
      by_cases hc : c = '\n'
      · rw [if_pos hc, List.cons.injEq] at h
        have hls : endsLine ls.flatten = true := ih h.2
        by_cases hnil : ls.flatten = []
        · simp [hnil, ← h.1, hc, endsLine]
        · rw [List.flatten_cons, endsLine_append hnil, hls]
      · rw [if_neg hc] at h
        cases hlines : brokenLines cs with
        | nil =>
          rw [hlines, List.cons.injEq] at h
          exact absurd (List.append_eq_nil_iff.mp h.2.symm).2 hrest
        | cons line more =>
          rw [hlines, List.cons.injEq] at h
          have hline : line ≠ [] := ne_nil_of_mem_brokenLines (hlines ▸ List.mem_cons_self)
          have hls : endsLine (line :: ls).flatten = true := ih (by rw [hlines, h.2]; rfl)
          rw [← h.1, List.flatten_cons, List.cons_append, endsLine_cons (by simp [hline])]
          simpa using hls

/-- The lines after the first one are the lines of the text that they make up. -/
theorem brokenLines_flatten_tail {t line : Text} {rest : List Text}
    (h : brokenLines t = line :: rest) : brokenLines rest.flatten = rest := by
  induction t generalizing line with
  | nil => cases h
  | cons c cs ih =>
    rw [brokenLines] at h
    by_cases hc : c = '\n'
    · rw [if_pos hc, List.cons.injEq] at h
      rw [← h.2, flatten_brokenLines]
    · rw [if_neg hc] at h
      cases hlines : brokenLines cs with
      | nil => rw [hlines, List.cons.injEq] at h; rw [← h.2]; rfl
      | cons first more =>
        rw [hlines, List.cons.injEq] at h
        exact ih (h.2 ▸ hlines)

/-- The last lines of a text are the lines of the text that they make up. -/
theorem brokenLines_flatten_right {t : Text} {ls rest : List Text}
    (h : brokenLines t = ls ++ rest) : brokenLines rest.flatten = rest := by
  induction ls generalizing t with
  | nil => rw [← List.nil_append rest, ← h, flatten_brokenLines]
  | cons line ls ih => exact ih (brokenLines_flatten_tail h)

/-- The first lines of a text are the lines of the text that they make up. -/
theorem brokenLines_flatten_left {t : Text} {ls rest : List Text}
    (h : brokenLines t = ls ++ rest) : brokenLines ls.flatten = ls := by
  by_cases hrest : rest = []
  · rw [hrest, List.append_nil] at h
    rw [← h, flatten_brokenLines]
  · have happend := brokenLines_append (endsLine_flatten h hrest) rest.flatten
    rw [← List.flatten_append, ← h, flatten_brokenLines, brokenLines_flatten_right h] at happend
    exact (List.append_cancel_right (h.symm.trans happend)).symm

/-- A line without its line end: the line feed, and one carriage return before it. A line that has
no line feed keeps its carriage returns. -/
def withoutLineEnd (line : Text) : Text :=
  match line.reverse with
  | '\n' :: '\r' :: rest => rest.reverse
  | '\n' :: rest => rest.reverse
  | _ => line

/-- A line loses nothing but its line feed if it holds no carriage return. -/
theorem withoutLineEnd_append_lineFeed {line : Text} (h : '\r' ∉ line) :
    withoutLineEnd (line ++ ['\n']) = line := by
  have hreverse : '\r' ∉ line.reverse := by simpa using h
  unfold withoutLineEnd
  rw [List.reverse_append, List.reverse_singleton, List.singleton_append]
  split
  · rename_i heq
    rw [(List.cons.inj heq).2] at hreverse
    exact absurd List.mem_cons_self hreverse
  · rename_i heq
    rw [← (List.cons.inj heq).2, List.reverse_reverse]
  · rename_i hne
    exact absurd rfl (hne line.reverse)

/-- A line loses the carriage return before its line feed. -/
theorem withoutLineEnd_append_returnLineFeed (line : Text) :
    withoutLineEnd (line ++ ['\r', '\n']) = line := by
  simp [withoutLineEnd]

/-- The lines of a text without their line ends. -/
def lines (t : Text) : List Text := (brokenLines t).map withoutLineEnd

/-- A line without its line end holds no line feed. -/
theorem lineFeed_notMem_of_mem_lines {t line : Text} (h : line ∈ lines t) : '\n' ∉ line := by
  obtain ⟨broken, hbroken, rfl⟩ := List.mem_map.mp h
  obtain ⟨u, hu, rfl | rfl⟩ := exists_of_mem_brokenLines hbroken
  · unfold withoutLineEnd
    split
    · rename_i heq
      exact absurd (List.mem_reverse.mp (heq ▸ List.mem_cons_self)) hu
    · rename_i heq
      exact absurd (List.mem_reverse.mp (heq ▸ List.mem_cons_self)) hu
    · exact hu
  · unfold withoutLineEnd
    rw [List.reverse_concat]
    split
    · rename_i rest heq
      have hmem : '\n' ∈ rest.reverse → '\n' ∈ u := fun hmem ↦ by
        rw [← List.mem_reverse, (List.cons.inj heq).2]
        exact List.mem_cons_of_mem _ (List.mem_reverse.mp hmem)
      exact mt hmem hu
    · rename_i rest heq
      rwa [← (List.cons.inj heq).2, List.reverse_reverse]
    · rename_i hne
      exact absurd rfl (hne u.reverse)

end Weave.Text
