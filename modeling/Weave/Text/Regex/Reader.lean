import Weave.Text.Regex
import Weave.Text.Octets

/-!
# Regular expressions as they are written

There are two ways to write the same expressions: in a basic one, the signs for groups, choices and
repetitions come after a backslash; in an extended one they stand alone, and the backslash takes
their meaning away.

## Main definitions

* `Weave.Regex.Sign`: the signs of a written expression.
* `Weave.Regex.signs?`: the signs of a text.
* `Weave.Regex.read?`: the expression that a text stands for.
-/

namespace Weave.Regex

/-- The signs of a written expression. -/
inductive Sign where
  | one (cls : CharClass)
  | opening
  | closing
  | bar
  | caret
  | dollar
  | repetition (low : Nat) (high : Option Nat)
  deriving Repr, DecidableEq

/-! ### Signs -/

/-- The limits of a repetition: a number, or two with a comma between them, of which the second may
be missing. -/
def limits? (text : Text) : Option (Nat × Option Nat) :=
  match Text.splitOnce? (· = ',') text with
  | none => (Octets.toNat? text).map fun n ↦ (n, some n)
  | some (low, []) => (Octets.toNat? low).map fun n ↦ (n, none)
  | some (low, high) => do
    let low ← if low.isEmpty then some 0 else Octets.toNat? low
    return (low, some (← Octets.toNat? high))

/-- The limits in braces, after the opening one, and what follows. In a basic expression the closing
brace comes after a backslash. -/
def repetition? (extended : Bool) (text : Text) : Option (Sign × Text) := do
  let (inner, rest) ← Text.breakOn? (if extended then ['\x7d'] else ['\\', '\x7d']) text
  let (low, high) ← limits? inner
  return (.repetition low high, rest)

/-- The ranges of a bracket expression up to the bracket that closes it, and what follows. A closing
bracket that comes first stands for itself. -/
def ranges? (first : Bool) : Nat → Text → Option (List (Char × Char) × Text)
  | 0, _ => none
  | _, [] => none
  | bound + 1, '[' :: ':' :: cs =>
    let name := cs.takeWhile (· ≠ ':')
    match cs.drop name.length with
    | ':' :: ']' :: rest => do
      let (ranges, rest) ← ranges? false bound rest
      return (CharClass.rangesOf name ++ ranges, rest)
    | _ => none
  | bound + 1, c :: cs =>
    if c = ']' && !first then some ([], cs)
    else
      match cs with
      | '-' :: high :: rest =>
        if high = ']' then do
          let (ranges, rest) ← ranges? false bound cs
          return ((c, c) :: ranges, rest)
        else do
          let (ranges, rest) ← ranges? false bound rest
          return ((c, high) :: ranges, rest)
      | _ => do
        let (ranges, rest) ← ranges? false bound cs
        return ((c, c) :: ranges, rest)

/-- The bracket expression after its opening bracket, and what follows. -/
def set? (text : Text) : Option (Sign × Text) := do
  let negated := text.head? = some '^'
  let (ranges, rest) ← ranges? true (text.length + 1) (if negated then text.drop 1 else text)
  return (.one ⟨negated, ranges⟩, rest)

/-- The ranges of the characters that words are made of. -/
def wordRanges : List (Char × Char) := ('_', '_') :: CharClass.rangesOf "alnum".toList

/-- The sign that a character stands for where its special meaning is on. -/
def special? (extended : Bool) : Char → Text → Option (Sign × Text)
  | '(', rest => some (.opening, rest)
  | ')', rest => some (.closing, rest)
  | '|', rest => some (.bar, rest)
  | '+', rest => some (.repetition 1 none, rest)
  | '?', rest => some (.repetition 0 (some 1), rest)
  | '\x7b', rest => repetition? extended rest
  | _, _ => none

/-- The sign that a character after a backslash stands for. -/
def escaped (extended : Bool) (c : Char) (rest : Text) : Option (Sign × Text) :=
  match c with
  | 'n' => some (.one (.only '\n'), rest)
  | 't' => some (.one (.only '\t'), rest)
  | 'w' => some (.one ⟨false, wordRanges⟩, rest)
  | 'W' => some (.one ⟨true, wordRanges⟩, rest)
  | 's' => some (.one ⟨false, CharClass.rangesOf "space".toList⟩, rest)
  | 'S' => some (.one ⟨true, CharClass.rangesOf "space".toList⟩, rest)
  | _ =>
    if extended then some (.one (.only c), rest)
    else if c = '\x7b' then repetition? extended rest
    else some ((special? extended c rest).getD (.one (.only c), rest))

/-- The first sign of a text, and what follows. -/
def sign? (extended : Bool) : Text → Option (Sign × Text)
  | [] => none
  | '\\' :: c :: rest => escaped extended c rest
  | '[' :: rest => set? rest
  | '.' :: rest => some (.one .any, rest)
  | '*' :: rest => some (.repetition 0 none, rest)
  | '^' :: rest => some (.caret, rest)
  | '$' :: rest => some (.dollar, rest)
  | c :: rest =>
    if extended then some ((special? extended c rest).getD (.one (.only c), rest))
    else some (.one (.only c), rest)

/-- The signs of a text. -/
def signs? (extended : Bool) : Nat → Text → Option (List Sign)
  | _, [] => some []
  | 0, _ => none
  | bound + 1, text => do
    let (sign, rest) ← sign? extended text
    return sign :: (← signs? extended bound rest)

/-! ### Expressions -/

/-- The signs that have not been read, and the number of groups that have. -/
structure Position where
  signs : List Sign
  groups : Nat := 0

/-- Reads a part of an expression. -/
abbrev Reading := StateT Position Option

/-- The next sign, if there is one. -/
def peek? : Reading (Option Sign) := return (← get).signs.head?

/-- Goes on after the next sign. -/
def skip : Reading Unit := modify fun p ↦ { p with signs := p.signs.drop 1 }

/-- An expression with the repetitions that follow it. -/
def repeated : Nat → Regex → Reading Regex
  | 0, regex => return regex
  | bound + 1, regex => do
    match ← peek? with
    | some (.repetition low high) =>
      skip
      repeated bound (.times low high regex)
    | _ => return regex

/-- Whether a dollar stands at the end of a line: in a basic expression only if nothing but the end
of a group or of a choice follows it. -/
def isFinish (extended : Bool) : List Sign → Bool
  | [] | .closing :: _ | .bar :: _ => true
  | _ => extended

/-- An expression without choices outside groups. In a basic expression a circumflex has its meaning
only at the start. -/
def sequence (extended : Bool) (inner : Reading Regex) (first : Bool) : Nat → Reading Regex
  | 0 => return .nothing
  | bound + 1 => do
    let one (regex : Regex) : Reading Regex := do
      skip
      let regex ← repeated (bound + 1) regex
      return .both regex (← sequence extended inner false bound)
    match ← peek? with
    | none | some .bar | some .closing => return .nothing
    | some (.one cls) => one (.one cls)
    | some (.repetition ..) =>
      if first && !extended then one (.one (.only '*'))
      else
        skip
        sequence extended inner first bound
    | some .caret =>
      if first || extended then
        skip
        return .both .start (← sequence extended inner first bound)
      else one (.one (.only '^'))
    | some .dollar =>
      if isFinish extended ((← get).signs.drop 1) then one .finish else one (.one (.only '$'))
    | some .opening =>
      skip
      let number := (← get).groups + 1
      modify ({ · with groups := number })
      let regex ← inner
      match ← peek? with
      | some .closing => one (.group number regex)
      | _ => failure

/-- An expression up to the end of the group around it. -/
def choice (extended : Bool) : Nat → Reading Regex
  | 0 => failure
  | bound + 1 => do
    let first ← sequence extended (choice extended bound) true (bound + 1)
    match ← peek? with
    | some .bar =>
      skip
      return .either first (← choice extended bound)
    | _ => return first

/-- The expression that a text stands for, if it is well formed. -/
def read? (extended : Bool) (text : Text) : Option Regex := do
  let signs ← signs? extended text.length text
  let (regex, position) ← (choice extended (signs.length + 1)).run { signs }
  if position.signs.isEmpty then some regex else none

end Weave.Regex
