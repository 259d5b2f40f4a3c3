import Weave.Text.Basic

/-!
# Patterns

A pattern matches a text as a whole: each of its elements stands for one character of a class or for
any number of them.

## Main definitions

* `Weave.CharClass`: classes of characters.
* `Weave.Pattern`, `Weave.Pattern.isMatch`.
-/

namespace Weave

/-- A class of characters: those in one of some ranges, or those in none of them. -/
structure CharClass where
  negated : Bool
  ranges : List (Char × Char)
  deriving Repr, DecidableEq

namespace CharClass

/-- All characters. -/
def any : CharClass := ⟨true, []⟩

/-- One character. -/
def only (c : Char) : CharClass := ⟨false, [(c, c)]⟩

/-- All characters but one. -/
def allBut (c : Char) : CharClass := ⟨true, [(c, c)]⟩

/-- The ranges of the class of a name. -/
def rangesOf (name : Text) : List (Char × Char) :=
  match String.ofList name with
  | "upper" => [('A', 'Z')]
  | "lower" => [('a', 'z')]
  | "alpha" => [('A', 'Z'), ('a', 'z')]
  | "digit" => [('0', '9')]
  | "alnum" => [('0', '9'), ('A', 'Z'), ('a', 'z')]
  | "space" => [('\t', '\r'), (' ', ' ')]
  | "blank" => [('\t', '\t'), (' ', ' ')]
  | "punct" => [('!', '/'), (':', '@'), ('[', '\x60'), ('\x7b', '~')]
  | "cntrl" => [('\x00', '\x1f'), ('\x7f', '\x7f')]
  | "print" => [(' ', '~')]
  | "graph" => [('!', '~')]
  | "xdigit" => [('0', '9'), ('A', 'F'), ('a', 'f')]
  | _ => []

/-- A class that does not tell upper case from lower case. -/
def folded (cls : CharClass) : CharClass :=
  { cls with
    ranges := cls.ranges.flatMap fun (low, high) ↦
      [(low, high), (low.toLower, high.toLower), (low.toUpper, high.toUpper)] }

/-- Whether a character is in a class. -/
def holds (cls : CharClass) (c : Char) : Bool :=
  (cls.ranges.any fun (low, high) ↦ low.toNat ≤ c.toNat && c.toNat ≤ high.toNat) != cls.negated

end CharClass

/-- What one element of a pattern stands for. -/
inductive Pattern.Element where
  | one (cls : CharClass)
  | many (cls : CharClass)
  deriving Repr, DecidableEq

/-- A pattern: its elements in order. -/
abbrev Pattern := List Pattern.Element

namespace Pattern

/-- The element that stands for a character. -/
def Element.character (c : Char) : Element := .one (.only c)

/-- Whether a pattern matches a text as a whole. -/
def isMatch : Pattern → Text → Bool
  | [], t => t.isEmpty
  | .one _ :: _, [] => false
  | .one cls :: rest, c :: cs => cls.holds c && isMatch rest cs
  | .many _ :: rest, [] => isMatch rest []
  | .many cls :: rest, c :: cs =>
    isMatch rest (c :: cs) || (cls.holds c && isMatch (.many cls :: rest) cs)
termination_by pattern t => pattern.length + t.length

end Pattern

end Weave
