import Weave.Text.Pattern

/-!
# Regular expressions

A regular expression matches parts of a text. Of the parts that it matches, a search takes the
leftmost one, and of those that start there the longest.

## Main definitions

* `Weave.Regex`: regular expressions.
* `Weave.Regex.advance`: all ways in which an expression matches from a position on.
* `Weave.Regex.find?`: the part of a text that a search takes.
-/

namespace Weave

/-- Regular expressions. -/
inductive Regex where
  | nothing
  | one (cls : CharClass)
  | start
  | finish
  | group (number : Nat) (inner : Regex)
  | both (first second : Regex)
  | either (first second : Regex)
  /-- An expression from `low` times on, at most `high` times. -/
  | times (low : Nat) (high : Option Nat) (inner : Regex)
  deriving Repr

namespace Regex

/-- An expression that does not tell upper case from lower case. -/
def folded : Regex → Regex
  | one cls => one cls.folded
  | group number inner => group number inner.folded
  | both first second => both first.folded second.folded
  | either first second => either first.folded second.folded
  | times low high inner => times low high inner.folded
  | regex => regex

/-- The expression that matches a text only. -/
def ofText (text : Text) : Regex := text.foldr (fun c rest ↦ both (one (.only c)) rest) nothing

/-- How far a text has been matched: what was taken, the latest first, what is left, and what the
groups have matched. -/
structure Progress where
  taken : Text
  left : Text
  groups : List (Nat × Text) := []
  deriving Repr, DecidableEq

/-- Progress without what has got no farther than another one before it. -/
def distinct (found : List Progress) : List Progress :=
  found.foldr (fun p others ↦
    p :: others.filter fun q ↦ q.left.length ≠ p.left.length) []

/-- The ways in which something matches again and again, more often first. Each time but those that
are required it has to take something. -/
def again (step : Progress → List Progress) : Nat → Nat → Option Nat → Progress → List Progress
  | 0, _, _, p => [p]
  | bound + 1, low, high, p =>
    if high = some 0 then [p]
    else
      let next := (step p).filter fun q ↦ 0 < low || q.left.length < p.left.length
      let more (q : Progress) : List Progress := again step bound (low - 1) (high.map (· - 1)) q
      let found :=
        match next with
        | [q] => more q
        | _ => distinct (next.flatMap more)
      if low = 0 then found ++ [p] else found

/-- The ways in which an expression matches from a position of a line on. -/
def advance : Regex → Progress → List Progress
  | nothing, p => [p]
  | one cls, p =>
    match p.left with
    | c :: cs => if cls.holds c then [{ p with taken := c :: p.taken, left := cs }] else []
    | [] => []
  | start, p => if p.taken.isEmpty then [p] else []
  | finish, p => if p.left.isEmpty then [p] else []
  | group number inner, p =>
    (advance inner p).map fun q ↦
      let text := p.left.take (p.left.length - q.left.length)
      { q with groups := (number, text) :: q.groups.filter fun (n, _) ↦ n ≠ number }
  | both first second, p => distinct ((advance first p).flatMap (advance second))
  | either first second, p => distinct (advance first p ++ advance second p)
  | times low high inner, p => again (advance inner) (low + p.left.length + 1) low high p

/-- A part of a text that an expression matches, with what its groups match. -/
structure Found where
  before : Text
  part : Text
  after : Text
  groups : List (Nat × Text)
  deriving Repr, DecidableEq

/-- The longest of some ways to match. -/
def longest? : List Progress → Option Progress
  | [] => none
  | p :: others =>
    match longest? others with
    | some q => if q.left.length < p.left.length then some q else some p
    | none => some p

/-- The part that an expression matches, from a position on. -/
def findFrom? (regex : Regex) (taken : Text) : Text → Option Found
  | [] => here []
  | c :: cs => (here (c :: cs)).or (findFrom? regex (c :: taken) cs)
where
  /-- The longest part at the position itself. -/
  here (left : Text) : Option Found :=
    (longest? (regex.advance { taken, left })).map fun p ↦
      let length := left.length - p.left.length
      ⟨taken.reverse, left.take length, left.drop length, p.groups⟩

/-- The part of a text that an expression matches: the leftmost one, and the longest that starts
there. -/
def find? (regex : Regex) (text : Text) : Option Found := findFrom? regex [] text

/-- Whether an expression matches a part of a text. -/
def isIn (regex : Regex) (text : Text) : Bool := (regex.find? text).isSome

/-! ### All occurrences -/

/-- A part of a text that an expression matches, with the text between it and the part found before
it. -/
structure Occurrence where
  between : Text
  part : Text
  groups : List (Nat × Text)
  deriving Repr, DecidableEq

/-- Occurrences and what follows the last one, with a text in front of all. -/
def inFront (text : Text) : List Occurrence × Text → List Occurrence × Text
  | ([], rest) => ([], text ++ rest)
  | (first :: others, rest) => ({ first with between := text ++ first.between } :: others, rest)

/-- The parts that an expression matches from a position on, and what follows the last one. After a
part that is not empty no empty one is found at once. -/
def occurrencesFrom (regex : Regex) : Nat → (adjacent : Bool) → (taken left : Text) →
    List Occurrence × Text
  | 0, _, _, left => ([], left)
  | bound + 1, adjacent, taken, left =>
    match findFrom? regex taken left with
    | none => ([], left)
    | some found =>
      let between := found.before.drop taken.length
      let passed := found.part.reverse ++ found.before.reverse
      let here : Occurrence := ⟨between, found.part, found.groups⟩
      if found.part.isEmpty then
        let others :=
          match found.after with
          | [] => ([], [])
          | c :: after => inFront [c] (occurrencesFrom regex bound false (c :: passed) after)
        if adjacent && between.isEmpty then others else (here :: others.1, others.2)
      else
        let others := occurrencesFrom regex bound true passed found.after
        (here :: others.1, others.2)

/-- The parts of a text that an expression matches, in order, and what follows the last one. -/
def occurrences (regex : Regex) (text : Text) : List Occurrence × Text :=
  occurrencesFrom regex (text.length + 2) false [] text

end Regex

end Weave
