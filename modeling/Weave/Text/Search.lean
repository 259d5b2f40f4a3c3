import Weave.Text.Basic

/-!
# Searching and replacing in texts

The first occurrence of a needle, the text before and after it, and the replacement of occurrences
from left to right.

## Main definitions

* `Weave.Text.after?`: what follows a needle at the start of a text.
* `Weave.Text.breakOn?`: the text before the first occurrence of a needle and the text after it.
* `Weave.Text.replaceAll`, `Weave.Text.replaceFirst`.
* `Weave.Text.splitWhere`, `Weave.Text.splitOnce?`, `Weave.Text.joinWith`.

## Main results

* `Weave.Text.after?_eq_some_iff`: a needle starts a text exactly when the text is the needle and a
  rest.
* `Weave.Text.eq_append_of_breakOn?`: the two sides and the needle make up the text.
* `Weave.Text.splitWhere_append_cons`, `Weave.Text.joinWith_append`: splitting and joining what is
  put together.
-/

namespace Weave.Text

/-- What follows `needle` in a text that starts with it. -/
def after? : Text → Text → Option Text
  | [], t => some t
  | _ :: _, [] => none
  | p :: ps, c :: cs => if p = c then after? ps cs else none

/-- Whether a text starts with `needle`. -/
def startsWith (needle t : Text) : Bool := (after? needle t).isSome

/-- A needle starts a text exactly when the text is the needle and a rest. -/
theorem after?_eq_some_iff {needle t rest : Text} :
    after? needle t = some rest ↔ t = needle ++ rest := by
  induction needle generalizing t with
  | nil => simp [after?, eq_comm]
  | cons p ps ih =>
    cases t with
    | nil => simp [after?]
    | cons c cs =>
      by_cases h : p = c
      · simp [after?, h, ih]
      · simp [after?, h, Ne.symm h]

/-- The text before the first occurrence of `needle` and the text after it. -/
def breakOn? (needle : Text) : Text → Option (Text × Text)
  | [] => (after? needle []).map (([], ·))
  | c :: cs =>
    match after? needle (c :: cs) with
    | some rest => some ([], rest)
    | none => (breakOn? needle cs).map fun (before, rest) ↦ (c :: before, rest)

/-- The two sides of the first occurrence, with the needle between them, make up the text. -/
theorem eq_append_of_breakOn? {needle t before rest : Text}
    (h : breakOn? needle t = some (before, rest)) : t = before ++ needle ++ rest := by
  induction t generalizing before with
  | nil =>
    simp only [breakOn?, Option.map_eq_some_iff, Prod.mk.injEq] at h
    obtain ⟨r, hr, rfl, rfl⟩ := h
    simpa using after?_eq_some_iff.mp hr
  | cons c cs ih =>
    rw [breakOn?] at h
    cases hafter : after? needle (c :: cs) with
    | some r =>
      simp only [hafter, Option.some.injEq, Prod.mk.injEq] at h
      obtain ⟨rfl, rfl⟩ := h
      simpa using after?_eq_some_iff.mp hafter
    | none =>
      simp only [hafter, Option.map_eq_some_iff, Prod.mk.injEq] at h
      obtain ⟨⟨b, r⟩, hbr, rfl, rfl⟩ := h
      simp [ih hbr]

/-- What follows an occurrence is no longer than the text. -/
theorem length_le_of_breakOn? {needle t before rest : Text}
    (h : breakOn? needle t = some (before, rest)) : rest.length + needle.length ≤ t.length := by
  have := congrArg List.length (eq_append_of_breakOn? h)
  simp only [List.length_append] at this
  omega

/-- Whether `needle` occurs in a text. -/
def holds (needle t : Text) : Bool := (breakOn? needle t).isSome

/-- The text with every occurrence of `needle` replaced, taken from the left and without overlap.
The empty needle has no occurrences to replace. -/
def replaceAll (needle new : Text) (t : Text) : Text :=
  match _hb : breakOn? needle t with
  | none => t
  | some (before, rest) =>
    if needle = [] then t
    else before ++ new ++ replaceAll needle new rest
termination_by t.length
decreasing_by
  have := length_le_of_breakOn? _hb
  have : needle.length ≠ 0 := by simpa using ‹¬needle = []›
  omega

/-- The text with the first occurrence of `needle` replaced. -/
def replaceFirst (needle new t : Text) : Text :=
  match breakOn? needle t with
  | none => t
  | some (before, rest) => before ++ new ++ rest

/-- The parts of a text between the characters that satisfy `p`; there is one part more than there
are such characters. -/
def splitWhere (p : Char → Bool) : Text → List Text
  | [] => [[]]
  | c :: cs =>
    if p c then [] :: splitWhere p cs
    else
      match splitWhere p cs with
      | [] => [[c]]
      | part :: parts => (c :: part) :: parts

/-- The text before the first character that satisfies `p` and the text after it. -/
def splitOnce? (p : Char → Bool) : Text → Option (Text × Text)
  | [] => none
  | c :: cs =>
    if p c then some ([], cs)
    else (splitOnce? p cs).map fun (before, rest) ↦ (c :: before, rest)

variable {p : Char → Bool}

theorem splitWhere_eq_singleton {t : Text} (h : ∀ c ∈ t, p c = false) : splitWhere p t = [t] := by
  induction t with
  | nil => rfl
  | cons c cs ih =>
    obtain ⟨hc, hcs⟩ := List.forall_mem_cons.mp h
    rw [splitWhere, hc, if_neg Bool.false_ne_true, ih hcs]

theorem splitWhere_ne_nil (t : Text) : splitWhere p t ≠ [] := by
  cases t with
  | nil => exact List.cons_ne_nil _ _
  | cons c cs =>
    rw [splitWhere]
    split
    · exact List.cons_ne_nil _ _
    · split <;> exact List.cons_ne_nil _ _

/-- A text is split at a separator into the parts before it and the parts behind it. -/
theorem splitWhere_append_cons {c : Char} (hc : p c = true) (s t : Text) :
    splitWhere p (s ++ c :: t) = splitWhere p s ++ splitWhere p t := by
  induction s with
  | nil => simp [splitWhere, hc]
  | cons d ds ih =>
    rw [List.cons_append, splitWhere, splitWhere, ih]
    split
    · rfl
    · cases hsplit : splitWhere p ds with
      | nil => exact absurd hsplit (splitWhere_ne_nil ds)
      | cons part parts => rfl

/-- No separator is left in a part. -/
theorem eq_false_of_mem_splitWhere {t part : Text} (h : part ∈ splitWhere p t) {c : Char}
    (hc : c ∈ part) : p c = false := by
  induction t generalizing part with
  | nil => simp_all [splitWhere]
  | cons d ds ih =>
    rw [splitWhere] at h
    by_cases hd : p d = true
    · rw [if_pos hd] at h
      rcases List.mem_cons.mp h with rfl | h
      · cases hc
      · exact ih h hc
    · obtain ⟨first, rest, hsplit⟩ := List.exists_cons_of_ne_nil (splitWhere_ne_nil (p := p) ds)
      rw [if_neg hd, hsplit] at h
      rw [hsplit] at ih
      rcases List.mem_cons.mp h with rfl | h
      · rcases List.mem_cons.mp hc with rfl | hc
        · simpa using hd
        · exact ih List.mem_cons_self hc
      · exact ih (List.mem_cons_of_mem _ h) hc

/-- A text is split once at the first separator in it. -/
theorem splitOnce?_eq_some_iff {t before rest : Text} :
    splitOnce? p t = some (before, rest) ↔
      ∃ c, p c = true ∧ t = before ++ c :: rest ∧ ∀ d ∈ before, p d = false := by
  induction t generalizing before with
  | nil => simp [splitOnce?]
  | cons c cs ih =>
    rw [splitOnce?]
    by_cases hc : p c = true
    · rw [if_pos hc, Option.some.injEq, Prod.mk.injEq]
      constructor
      · rintro ⟨rfl, rfl⟩
        exact ⟨c, hc, rfl, nofun⟩
      · rintro ⟨d, hd, heq, hbefore⟩
        cases before with
        | nil => exact ⟨rfl, (List.cons.inj heq).2⟩
        | cons e es =>
          have hce : p e = false := hbefore e List.mem_cons_self
          rw [← (List.cons.inj heq).1, hc] at hce
          cases hce
    · rw [if_neg hc, Option.map_eq_some_iff]
      constructor
      · rintro ⟨⟨found, after⟩, hfound, heq⟩
        obtain ⟨rfl, rfl⟩ := Prod.mk.inj heq
        obtain ⟨d, hd, rfl, hbefore⟩ := ih.mp hfound
        exact ⟨d, hd, rfl, List.forall_mem_cons.mpr ⟨by simpa using hc, hbefore⟩⟩
      · rintro ⟨d, hd, heq, hbefore⟩
        cases before with
        | nil =>
          rw [(List.cons.inj heq).1] at hc
          exact absurd hd hc
        | cons e es =>
          obtain ⟨rfl, rfl⟩ := List.cons.inj heq
          have hes := (List.forall_mem_cons.mp hbefore).2
          exact ⟨(es, rest), ih.mpr ⟨d, hd, rfl, hes⟩, rfl⟩

theorem splitOnce?_eq_none_iff {t : Text} : splitOnce? p t = none ↔ ∀ c ∈ t, p c = false := by
  induction t with
  | nil => simp [splitOnce?]
  | cons c cs ih =>
    rw [splitOnce?, List.forall_mem_cons]
    cases hc : p c with
    | true => simp
    | false => simp [ih]

/-- The parts of a text joined by a separator. -/
def joinWith (separator : Text) : List Text → Text
  | [] => []
  | [part] => part
  | part :: parts => part ++ separator ++ joinWith separator parts

@[simp] theorem joinWith_nil (separator : Text) : joinWith separator [] = [] := rfl

@[simp] theorem joinWith_singleton (separator part : Text) :
    joinWith separator [part] = part := rfl

theorem joinWith_cons {parts : List Text} (h : parts ≠ []) (separator part : Text) :
    joinWith separator (part :: parts) = part ++ separator ++ joinWith separator parts := by
  obtain ⟨next, rest, rfl⟩ := List.exists_cons_of_ne_nil h
  rw [joinWith]
  exact List.cons_ne_nil next rest

/-- Parts behind others are joined to them by a separator. -/
theorem joinWith_append {front parts : List Text} (hfront : front ≠ []) (hparts : parts ≠ [])
    (separator : Text) : joinWith separator (front ++ parts) =
      joinWith separator front ++ separator ++ joinWith separator parts := by
  induction front with
  | nil => exact absurd rfl hfront
  | cons part rest ih =>
    by_cases hrest : rest = []
    · rw [hrest, List.singleton_append, joinWith_cons hparts, joinWith_singleton]
    · rw [List.cons_append, joinWith_cons (List.append_ne_nil_of_left_ne_nil hrest parts),
        ih hrest, joinWith_cons hrest]
      simp only [List.append_assoc]

/-- Parts of which none is empty are joined to the empty text only if there are none. -/
theorem joinWith_eq_nil_iff {separator : Text} {parts : List Text} (h : ∀ part ∈ parts, part ≠ []) :
    joinWith separator parts = [] ↔ parts = [] := by
  cases parts with
  | nil => exact iff_of_true rfl rfl
  | cons part rest =>
    refine iff_of_false (fun hnil ↦ h part List.mem_cons_self ?_) (List.cons_ne_nil part rest)
    by_cases hrest : rest = []
    · rwa [hrest] at hnil
    · rw [joinWith_cons hrest, List.append_assoc] at hnil
      exact (List.append_eq_nil_iff.mp hnil).1

/-- Joined parts hold no character that is neither in them nor in the separator. -/
theorem notMem_joinWith {c : Char} {separator : Text} {parts : List Text}
    (hseparator : c ∉ separator) (h : ∀ part ∈ parts, c ∉ part) :
    c ∉ joinWith separator parts := by
  induction parts with
  | nil => exact List.not_mem_nil
  | cons part rest ih =>
    obtain ⟨hpart, hrest⟩ := List.forall_mem_cons.mp h
    by_cases hnil : rest = []
    · rwa [hnil]
    · rw [joinWith_cons hnil]
      simp [hpart, hseparator, ih hrest]

/-- Parts without separators are found again in the text that they are joined to. -/
theorem splitWhere_joinWith {c : Char} {parts : List Text} (hc : p c = true) (hne : parts ≠ [])
    (h : ∀ part ∈ parts, ∀ d ∈ part, p d = false) : splitWhere p (joinWith [c] parts) = parts := by
  induction parts with
  | nil => exact absurd rfl hne
  | cons part rest ih =>
    obtain ⟨hpart, hrest⟩ := List.forall_mem_cons.mp h
    by_cases hnil : rest = []
    · rw [hnil, joinWith_singleton, splitWhere_eq_singleton hpart]
    · rw [joinWith_cons hnil, List.append_assoc, List.singleton_append,
        splitWhere_append_cons hc, splitWhere_eq_singleton hpart, ih hnil hrest,
        List.singleton_append]

/-- The parts of a text with the separators between them are the text. -/
theorem joinWith_splitWhere (c : Char) (t : Text) : joinWith [c] (splitWhere (· = c) t) = t := by
  induction t with
  | nil => rfl
  | cons d ds ih =>
    rw [splitWhere]
    obtain ⟨first, rest, hsplit⟩ :=
      List.exists_cons_of_ne_nil (splitWhere_ne_nil (p := (· = c)) ds)
    by_cases hd : d = c
    · rw [if_pos (decide_eq_true hd), joinWith_cons (splitWhere_ne_nil ds), ih, hd]
      rfl
    · rw [if_neg (by simpa using hd), hsplit]
      rw [hsplit] at ih
      rw [← ih]
      cases rest <;> rfl

theorem joinWith_append_singleton (separator : Text) (front : List Text) (last : Text) :
    joinWith separator (front ++ [last]) = front.flatMap (· ++ separator) ++ last := by
  induction front with
  | nil => rfl
  | cons part rest ih =>
    rw [List.cons_append, joinWith, ih, List.flatMap_cons, List.append_assoc, List.append_assoc,
      List.append_assoc]
    exact List.append_ne_nil_of_right_ne_nil rest (List.cons_ne_nil last [])

end Weave.Text
