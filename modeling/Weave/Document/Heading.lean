import Weave.Text.Line
import Weave.Text.LowerCase

/-!
# Headings

A heading is a line of one to five number signs, a space and a title. Lines between two fence lines
are code and hold no headings, whatever the fences look like.

## Main definitions

* `Weave.Heading`: a level and a title.
* `Weave.Heading.ofLine?`: the heading that a line is.
* `Weave.Heading.find`: the headings of a document, in order.
* `Weave.Heading.slug`: the anchor of a title.
-/

namespace Weave

/-- A heading: the number of its signs and its title. -/
structure Heading where
  level : Nat
  title : Text
  deriving Repr, DecidableEq

namespace Heading

/-- The heading that a line is. The title loses the blanks at its end and keeps those at its
start. -/
def ofLine? (line : Text) : Option Heading :=
  let signs := line.takeWhile (· = '#')
  match line.dropWhile (· = '#') with
  | ' ' :: title =>
    if 1 ≤ signs.length ∧ signs.length ≤ 5 ∧ '\n' ∉ title then
      some ⟨signs.length, Text.trimEnd title⟩
    else none
  | _ => none

/-- Whether a line starts, after blanks, with three backquotes or three tildes. -/
def isFenceLine (line : Text) : Bool :=
  match Text.trimStart line with
  | '\x60' :: '\x60' :: '\x60' :: _ => true
  | '~' :: '~' :: '~' :: _ => true
  | _ => false

/-- The headings of the lines that follow; `inFence` says whether they stand after an odd number of
fence lines. -/
def collect (inFence : Bool) : List Text → List Heading
  | [] => []
  | line :: rest =>
    if isFenceLine line then collect (!inFence) rest
    else if inFence then collect inFence rest
    else (ofLine? line).toList ++ collect inFence rest

/-- The headings of a document, in order. -/
def find (document : Text) : List Heading := collect false (Text.lines document)

/-- The anchor of a title: spaces become hyphens, full stops go, the rest is in lower case. -/
def slug (title : Text) : Text :=
  Text.lowerCase ((title.map fun c ↦ if c = ' ' then '-' else c).filter (· ≠ '.'))

end Heading

end Weave
