import Mathlib.Data.List.Infix
import Weave.Text.Line
import Weave.Text.Search

/-!
# Occurrences

A needle occurs in a text where it stands between two parts of it. The search finds the first
occurrence. This file says where that is for texts that are put together from others.

## Main definitions

* `Weave.Text.IsUnbordered`: needles that do not overlap themselves.

## Main results

* `Weave.Text.holds_eq_false_iff`, `Weave.Text.holds_eq_true_iff`: whether a needle occurs.
* `Weave.Text.breakOn?_eq_some_iff`: what the search finds.
* `Weave.Text.breakOn?_middle`: the first occurrence does not lie behind another one.
* `Weave.Text.breakOn?_append_lines`, `Weave.Text.breakOn?_append_of_notMem`: texts that the first
  occurrence lies behind.
* `Weave.Text.breakOn?_append_singleton`: a character that stands behind it.
-/

namespace Weave.Text

/-! ### A needle that is there -/

/-- A needle at the start of a text is its first occurrence. -/
theorem breakOn?_append_self (needle rest : Text) :
    breakOn? needle (needle ++ rest) = some ([], rest) := by
  have hafter : after? needle (needle ++ rest) = some rest := after?_eq_some_iff.mpr rfl
  cases happend : needle ++ rest with
  | nil =>
    rw [happend] at hafter
    rw [breakOn?, hafter]
    rfl
  | cons c cs =>
    rw [happend] at hafter
    rw [breakOn?, hafter]

/-- The first occurrence of a needle does not lie behind another one. -/
theorem breakOn?_middle (before needle rest : Text) : ∃ first more,
    breakOn? needle (before ++ needle ++ rest) = some (first, more ++ rest) := by
  induction before with
  | nil => exact ⟨[], [], breakOn?_append_self needle rest⟩
  | cons c cs ih =>
    rw [List.cons_append, List.cons_append, breakOn?]
    cases hafter : after? needle (c :: (cs ++ needle ++ rest)) with
    | none =>
      obtain ⟨first, more, hfirst⟩ := ih
      exact ⟨c :: first, more, by rw [hfirst]; rfl⟩
    | some tail =>
      -- Here the needle starts where the text does, so what follows it still holds the rest.
      have htext := after?_eq_some_iff.mp hafter
      have hlength := congrArg List.length htext
      simp only [List.length_cons, List.length_append] at hlength
      obtain ⟨more, rfl⟩ : rest <:+ tail :=
        List.suffix_of_suffix_length_le ⟨c :: (cs ++ needle), by simpa using htext⟩
          (List.suffix_append needle tail) (by omega)
      exact ⟨[], more, rfl⟩

/-- No occurrence starts before the first one. -/
theorem length_le_of_breakOn?_append {needle before rest front back : Text}
    (h : breakOn? needle (front ++ needle ++ back) = some (before, rest)) :
    before.length ≤ front.length := by
  obtain ⟨first, more, hfirst⟩ := breakOn?_middle front needle back
  obtain ⟨rfl, rfl⟩ : first = before ∧ more ++ back = rest := by simpa using hfirst.symm.trans h
  have hlength := congrArg List.length (eq_append_of_breakOn? h)
  simp only [List.length_append] at hlength
  omega

/-- A needle at the start of a text occurs in it. -/
theorem holds_append (needle rest : Text) : holds needle (needle ++ rest) = true := by
  rw [holds, breakOn?_append_self]
  rfl

/-- A needle occurs where it stands between two texts. -/
theorem holds_middle (before needle rest : Text) :
    holds needle (before ++ needle ++ rest) = true := by
  obtain ⟨first, more, hfirst⟩ := breakOn?_middle before needle rest
  rw [holds, hfirst]
  rfl

/-- What occurs in a part of a text occurs in the text. -/
theorem holds_of_part {needle part : Text} (h : holds needle part = true) (before rest : Text) :
    holds needle (before ++ part ++ rest) = true := by
  obtain ⟨⟨front, tail⟩, hbreak⟩ := Option.isSome_iff_exists.mp h
  rw [eq_append_of_breakOn? hbreak]
  simpa using holds_middle (before ++ front) needle (tail ++ rest)

/-- A needle in a text has all its characters there. -/
theorem mem_of_holds {needle t : Text} {c : Char} (h : holds needle t = true) (hc : c ∈ needle) :
    c ∈ t := by
  obtain ⟨⟨before, rest⟩, hbreak⟩ := Option.isSome_iff_exists.mp h
  rw [eq_append_of_breakOn? hbreak]
  exact List.mem_append_left _ (List.mem_append_right _ hc)

/-- A needle does not occur exactly if the text is not made up of two parts with the needle between
them. -/
theorem holds_eq_false_iff {needle t : Text} :
    holds needle t = false ↔ ∀ before rest, t ≠ before ++ needle ++ rest := by
  constructor
  · rintro h before rest rfl
    rw [holds_middle] at h
    cases h
  · intro h
    refine Bool.eq_false_iff.mpr fun hholds ↦ ?_
    obtain ⟨⟨before, rest⟩, hbreak⟩ := Option.isSome_iff_exists.mp hholds
    exact h before rest (eq_append_of_breakOn? hbreak)

/-- A needle occurs exactly if it is a part of the text. -/
theorem holds_eq_true_iff {needle t : Text} : holds needle t = true ↔ needle <:+: t := by
  constructor
  · intro h
    obtain ⟨⟨before, rest⟩, hbreak⟩ := Option.isSome_iff_exists.mp h
    exact ⟨before, rest, (eq_append_of_breakOn? hbreak).symm⟩
  · rintro ⟨before, rest, rfl⟩
    exact holds_middle before needle rest

theorem breakOn?_eq_none_iff {needle t : Text} : breakOn? needle t = none ↔ ¬needle <:+: t := by
  rw [← holds_eq_true_iff, holds, Option.not_isSome_iff_eq_none]

/-! ### The first occurrence -/

/-- A needle that does not overlap itself: nothing stands both at its start and at its end but the
empty text and the needle. -/
def IsUnbordered (needle : Text) : Prop :=
  ∀ part, part <:+ needle → part <+: needle → part = [] ∨ part = needle

instance (needle : Text) : Decidable needle.IsUnbordered :=
  decidable_of_iff (∀ part ∈ needle.tails, part <+: needle → part = [] ∨ part = needle)
    (by simp only [List.mem_tails, IsUnbordered])

/-- No occurrence lies before the first one. -/
theorem not_infix_of_breakOn? {needle t before rest : Text} (hne : needle ≠ [])
    (h : breakOn? needle t = some (before, rest)) : ¬needle <:+: before := by
  rintro ⟨front, back, rfl⟩
  obtain ⟨first, more, hfirst⟩ := breakOn?_middle front needle (back ++ needle ++ rest)
  have htext := eq_append_of_breakOn? h
  simp only [List.append_assoc] at htext hfirst
  rw [← htext, h, Option.some.injEq, Prod.mk.injEq] at hfirst
  have hrest := congrArg List.length hfirst.2
  have hpos := List.length_pos_iff.mpr hne
  simp only [List.length_append] at hrest
  omega

/-- The search finds the parts of a text around a needle that does not overlap itself and does not
occur in the first part. -/
theorem breakOn?_eq_some_iff {needle t before rest : Text} (hne : needle ≠ [])
    (hneedle : needle.IsUnbordered) : breakOn? needle t = some (before, rest) ↔
      t = before ++ needle ++ rest ∧ ¬needle <:+: before := by
  refine ⟨fun h ↦ ⟨eq_append_of_breakOn? h, not_infix_of_breakOn? hne h⟩, ?_⟩
  rintro ⟨rfl, hbefore⟩
  induction before with
  | nil => exact breakOn?_append_self needle rest
  | cons c cs ih =>
    have hcs : ¬needle <:+: cs := fun h ↦ hbefore (h.trans (List.suffix_cons c cs).isInfix)
    -- A needle that starts here would lie in the first part or overlap the needle behind it.
    have hnone : after? needle (c :: (cs ++ needle ++ rest)) = none := by
      refine Option.eq_none_iff_forall_ne_some.mpr fun tail htail ↦ ?_
      have htext : c :: cs ++ (needle ++ rest) = needle ++ tail := by
        simpa using after?_eq_some_iff.mp htail
      rcases List.append_eq_append_iff.mp htext with ⟨part, hpart, hrest⟩ | ⟨more, hmore, -⟩
      · have hsuffix : part <:+ needle := ⟨c :: cs, hpart.symm⟩
        have hstart : part <+: needle :=
          List.prefix_of_prefix_length_le ⟨tail, hrest.symm⟩ (List.prefix_append needle rest)
            hsuffix.length_le
        rcases hneedle part hsuffix hstart with rfl | rfl
        · exact hbefore ⟨[], [], by simpa using hpart⟩
        · have := congrArg List.length hpart
          simp only [List.length_append, List.length_cons] at this
          omega
      · exact hbefore ⟨[], more, by simpa using hmore.symm⟩
    rw [List.cons_append, List.cons_append, breakOn?, hnone, ih hcs]
    rfl

/-! ### Texts that the first occurrence lies behind -/

/-- A needle without line feeds that does not occur in some lines is looked for behind them. -/
theorem breakOn?_append_lines {needle front : Text} (hfeed : '\n' ∉ needle)
    (hends : endsLine front = true) (hfront : holds needle front = false) (rest : Text) :
    breakOn? needle (front ++ rest) =
      (breakOn? needle rest).map fun (before, tail) ↦ (front ++ before, tail) := by
  induction front with
  | nil => simp
  | cons c cs ih =>
    have hafter : after? needle (c :: cs) = none := by
      cases hsome : after? needle (c :: cs) with
      | none => rfl
      | some tail => simp [holds, breakOn?, hsome] at hfront
    have hcs : holds needle cs = false := by simpa [holds, breakOn?, hafter] using hfront
    have hendsTail : endsLine cs = true := by
      by_cases hnil : cs = []
      · rw [hnil]
        rfl
      · rwa [endsLine_cons hnil] at hends
    -- A needle that starts here lies in the lines, or holds the line feed at their end.
    have hnone : after? needle (c :: (cs ++ rest)) = none := by
      refine Option.eq_none_iff_forall_ne_some.mpr fun tail htail ↦ ?_
      have htext : (c :: cs) ++ rest = needle ++ tail := after?_eq_some_iff.mp htail
      rcases List.append_eq_append_iff.mp htext with ⟨more, rfl, -⟩ | ⟨more, hmore, -⟩
      · exact hfeed (List.mem_append_left _ (lineFeed_mem_of_endsLine hends (by simp)))
      · rw [after?_eq_some_iff.mpr hmore] at hafter
        cases hafter
    rw [List.cons_append, breakOn?, hnone, ih hendsTail hcs, Option.map_map]
    rfl

/-- A needle is looked for behind characters that it does not start with. -/
theorem breakOn?_append_of_notMem {c : Char} {cs front : Text} (h : c ∉ front) (rest : Text) :
    breakOn? (c :: cs) (front ++ rest) =
      (breakOn? (c :: cs) rest).map fun (before, tail) ↦ (front ++ before, tail) := by
  induction front with
  | nil => simp
  | cons d ds ih =>
    obtain ⟨hd, hds⟩ := not_or.mp (mt List.mem_cons.mpr h)
    rw [List.cons_append, breakOn?, after?, if_neg hd, ih hds, Option.map_map]
    rfl

/-! ### A character at the end -/

theorem after?_append_singleton {needle : Text} {c : Char} (h : c ∉ needle) (t : Text) :
    after? needle (t ++ [c]) = (after? needle t).map (· ++ [c]) := by
  induction needle generalizing t with
  | nil => rfl
  | cons p ps ih =>
    obtain ⟨hc, hps⟩ := not_or.mp (mt List.mem_cons.mpr h)
    cases t with
    | nil => simp [after?, Ne.symm hc]
    | cons d ds =>
      rw [List.cons_append, after?, after?, ih hps]
      split <;> rfl

/-- A needle is found alike in a text with another character at its end, which it does not hold. -/
theorem breakOn?_append_singleton {needle : Text} {c : Char} (h : c ∉ needle) (t : Text) :
    breakOn? needle (t ++ [c]) =
      (breakOn? needle t).map fun (before, rest) ↦ (before, rest ++ [c]) := by
  induction t with
  | nil =>
    have hafter := after?_append_singleton h []
    rw [List.nil_append] at hafter ⊢
    rw [breakOn?, breakOn?, hafter]
    cases hnil : after? needle [] <;> simp [breakOn?, hnil]
  | cons d ds ih =>
    have hafter := after?_append_singleton h (d :: ds)
    rw [List.cons_append] at hafter ⊢
    rw [breakOn?, breakOn?, hafter, ih]
    cases after? needle (d :: ds) with
    | some rest => rfl
    | none => cases breakOn? needle ds <;> rfl

end Weave.Text
