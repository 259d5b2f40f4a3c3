import Weave.Text.Search

/-!
# Prompts

An interpreter prints its prompt without a line end, so that what it prints next shares a line with
it.

## Main definitions

* `Weave.Prompt.afterPrompts`: a line without the prompts at its start.
* `Weave.Prompt.strip?`: the text of a line, unless it held prompts only.
-/

namespace Weave.Prompt

/-- A line without the copies of the prompt at its start. -/
def afterPrompts (prompt line : Text) : Text :=
  match _h : Text.after? prompt line with
  | none => line
  | some rest => if prompt = [] then line else afterPrompts prompt rest
termination_by line.length
decreasing_by
  have := congrArg List.length (Text.after?_eq_some_iff.mp _h)
  have : prompt.length ≠ 0 := by simpa using ‹¬prompt = []›
  simp only [List.length_append] at *
  omega

/-- The text of a line after the prompts at its start; `none` if the line held nothing but prompts,
the last of which may lack the blanks at its end. -/
def strip? (prompt line : Text) : Option Text :=
  if prompt = [] then some line
  else
    let rest := afterPrompts prompt line
    let bare := Text.trimEnd prompt
    if bare ≠ [] ∧ Text.trimEnd rest = bare then none
    else if rest.length < line.length ∧ Text.allBlank rest then none
    else some rest

end Weave.Prompt
