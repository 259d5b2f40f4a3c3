import Weave.Text.Basic
import Weave.Text.LowerCase.Table

/-!
# Lower case

The lower case of a text after the full mapping of the Unicode standard: a character may become two,
and a sigma at the end of a word takes its final form.

## Main definitions

* `Weave.Text.lowerCase`: the lower case of a text.
* `Weave.Text.endsWord`: whether a sigma stands at the end of a word.
-/

namespace Weave.Text

/-- The image of a number in a run, if it belongs to the run. -/
def CaseRun.image? (run : CaseRun) (n : Nat) : Option Nat :=
  if run.first ≤ n ∧ n ≤ run.last ∧ (n - run.first) % run.stride = 0 then
    some (run.image + (n - run.first))
  else none

/-- Whether a character lies in one of the ranges. -/
def inRanges (ranges : List (Nat × Nat)) (c : Char) : Bool :=
  ranges.any fun (first, last) ↦ first ≤ c.toNat && c.toNat ≤ last

/-- The lower case of a character by itself. -/
def lowerChar (c : Char) : Text :=
  if c.toNat < 0x80 then [c.toLower]
  else if c = '\u0130' then ['i', '\u0307']
  else [(caseRuns.findSome? (·.image? c.toNat)).elim c Char.ofNat]

/-- Whether the first character that is not ignored has case. -/
def startsCased (t : Text) : Bool :=
  match t.dropWhile (inRanges caseIgnorableRanges) with
  | [] => false
  | c :: _ => inRanges casedRanges c

/-- Whether a sigma between the text `before` (in reverse order) and the text `rest` stands at the
end of a word. -/
def endsWord (before rest : Text) : Bool := startsCased before && !startsCased rest

/-- The lower case of a text that follows `before`, which is in reverse order. -/
def lowerCaseAfter (before : Text) : Text → Text
  | [] => []
  | c :: cs =>
    let image :=
      if c = 'Σ' then (if endsWord before cs then ['ς'] else ['σ'])
      else lowerChar c
    image ++ lowerCaseAfter (c :: before) cs

/-- The lower case of a text. -/
def lowerCase (t : Text) : Text := lowerCaseAfter [] t

end Weave.Text
