/-!
# Texts

A text is a list of characters. This file holds the characters that count as blank, the functions
that remove them from the ends of a text, and the words between them.

## Main definitions

* `Weave.Text`: the type of texts.
* `Weave.Text.isBlank`: the characters with the Unicode property White_Space.
* `Weave.Text.trim`, `Weave.Text.trimEnd`, `Weave.Text.words`.

## Main results

* `Weave.Text.trimEndWhere_eq_self_of_getLast?`: a text whose last character is kept is unchanged.
-/

namespace Weave

/-- A text: its characters in order. -/
abbrev Text := List Char

namespace Text

/-- A character with the Unicode property White_Space. -/
def isBlank (c : Char) : Bool :=
  let n := c.toNat
  (9 ≤ n && n ≤ 13) || n = 0x20 || n = 0x85 || n = 0xA0 || n = 0x1680 ||
    (0x2000 ≤ n && n ≤ 0x200A) || n = 0x2028 || n = 0x2029 || n = 0x202F || n = 0x205F || n = 0x3000

/-- The text without the characters at its start that satisfy `p`. -/
def trimStartWhere (p : Char → Bool) (t : Text) : Text := t.dropWhile p

/-- The text without the characters at its end that satisfy `p`. -/
def trimEndWhere (p : Char → Bool) : Text → Text
  | [] => []
  | c :: cs =>
    match trimEndWhere p cs with
    | [] => if p c then [] else [c]
    | kept => c :: kept

/-- The text without the blanks at its start. -/
def trimStart (t : Text) : Text := trimStartWhere isBlank t

/-- The text without the blanks at its end. -/
def trimEnd (t : Text) : Text := trimEndWhere isBlank t

/-- The text without the blanks at both ends. -/
def trim (t : Text) : Text := trimEnd (trimStart t)

/-- Whether a text holds blanks only. -/
def allBlank (t : Text) : Bool := t.all isBlank

/-- A line feed or a carriage return. -/
def isLineBreak (c : Char) : Bool := c = '\n' || c = '\r'

/-- A space or a tab. -/
def isSpaceOrTab (c : Char) : Bool := c = ' ' || c = '\t'

/-- The words of a text: its maximal runs of characters that are not blank. -/
def words : Text → List Text
  | [] => []
  | c :: cs =>
    if isBlank c then words cs
    else
      match cs with
      | [] => [[c]]
      | d :: _ =>
        if isBlank d then [c] :: words cs
        else
          match words cs with
          | [] => [[c]]
          | w :: ws => (c :: w) :: ws

/-- A number in decimal digits. -/
def ofNat (n : Nat) : Text := (Nat.toDigits 10 n)

/-- A text whose last character is kept is unchanged. -/
theorem trimEndWhere_eq_self_of_getLast? {p : Char → Bool} {t : Text}
    (h : ∀ c, t.getLast? = some c → p c = false) : trimEndWhere p t = t := by
  induction t with
  | nil => rfl
  | cons c cs ih =>
    cases cs with
    | nil => simp [trimEndWhere, h c rfl]
    | cons d ds =>
      have hrest := ih (fun e he ↦ h e (by simpa using he))
      rw [trimEndWhere, hrest]

/-- What is removed at the end of a text, with the text that is kept, is the whole text. -/
theorem exists_trimEndWhere_append (p : Char → Bool) (t : Text) :
    ∃ tail, t = trimEndWhere p t ++ tail ∧ tail.all p = true := by
  induction t with
  | nil => exact ⟨[], rfl, rfl⟩
  | cons c cs ih =>
    obtain ⟨tail, hcs, hall⟩ := ih
    rw [trimEndWhere]
    cases hkept : trimEndWhere p cs with
    | nil =>
      rw [hkept, List.nil_append] at hcs
      by_cases hc : p c = true
      · exact ⟨c :: cs, by simp [hc], by rw [hcs]; simp [hc, hall]⟩
      · exact ⟨cs, by simp [hc], by rw [hcs]; exact hall⟩
    | cons d ds => exact ⟨tail, by rw [hkept] at hcs; simp [hcs], hall⟩

/-- The last character of a text whose end has been removed is one that is kept. -/
theorem getLast?_trimEndWhere {p : Char → Bool} {t : Text} {c : Char}
    (h : (trimEndWhere p t).getLast? = some c) : p c = false := by
  induction t with
  | nil => cases h
  | cons d ds ih =>
    rw [trimEndWhere] at h
    cases hkept : trimEndWhere p ds with
    | nil =>
      rw [hkept] at h
      by_cases hd : p d = true
      · simp [hd] at h
      · obtain rfl : d = c := by simpa [hd] using h
        simpa using hd
    | cons e es =>
      rw [hkept] at h ih
      exact ih (by simpa using h)

theorem trimEndWhere_isPrefix (p : Char → Bool) (t : Text) : trimEndWhere p t <+: t := by
  obtain ⟨tail, ht, -⟩ := exists_trimEndWhere_append p t
  exact ⟨tail, ht.symm⟩

/-- What is left of a text without the blanks around it stands in the text. -/
theorem trim_isInfix (t : Text) : trim t <:+: t :=
  (trimEndWhere_isPrefix isBlank _).isInfix.trans (List.dropWhile_suffix isBlank).isInfix

theorem head?_trim {t : Text} {c : Char} (h : (trim t).head? = some c) : isBlank c = false := by
  obtain ⟨tail, htail⟩ := trimEndWhere_isPrefix isBlank (trimStart t)
  have hhead : (t.dropWhile isBlank).head? = some c := by
    rw [← trimStartWhere, ← trimStart, ← htail, List.head?_append, ← trimEnd, ← trim, h,
      Option.some_or]
  have hnot := List.head?_dropWhile_not isBlank t
  rwa [hhead] at hnot

theorem getLast?_trim {t : Text} {c : Char} (h : (trim t).getLast? = some c) : isBlank c = false :=
  getLast?_trimEndWhere h

end Text

end Weave
