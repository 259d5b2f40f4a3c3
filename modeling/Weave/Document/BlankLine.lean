import Weave.Text.Basic

/-!
# Blank lines

Collapsing takes the line feeds of a document in pairs, from left to right, and makes one of each
pair.

## Main definitions

* `Weave.BlankLine.collapse`.
-/

namespace Weave.BlankLine

/-- The document with one line feed for every pair of adjacent ones. -/
def collapse : Text → Text
  | [] => []
  | '\n' :: '\n' :: cs => '\n' :: collapse cs
  | c :: cs => c :: collapse cs

end Weave.BlankLine
