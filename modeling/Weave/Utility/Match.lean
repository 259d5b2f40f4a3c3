import Weave.Text.Line
import Weave.Text.Regex.Reader
import Weave.Utility.Basic

/-!
# Matching lines

The utility that prints the lines of its operands in which a regular expression matches.

## Main definitions

* `Weave.Utility.grep`.
-/

namespace Weave.Utility

/-- How lines are matched and what is printed of them. -/
structure Matching where
  regex : Regex
  /-- Whether the lines count in which nothing matches. -/
  inverted : Bool := false
  numbered : Bool := false
  /-- Whether only the parts that match are printed. -/
  partsOnly : Bool := false
  countOnly : Bool := false
  namesOnly : Bool := false
  silent : Bool := false
  /-- Whether the name of the operand is printed in front of lines. -/
  named : Bool := false

/-- The expression that the patterns and options of some arguments ask for. -/
def requestedRegex? (arguments : Arguments) (patterns : List Octets) : Option Regex := do
  let lines := patterns.flatMap (Text.splitWhere (· = '\n'))
  let regexes ← lines.mapM fun line ↦
    if arguments.has 'F' then some (Regex.ofText line) else Regex.read? (arguments.has 'E') line
  let regex ← regexes.getLast?
  let regex := regexes.dropLast.foldr Regex.either regex
  let regex := if arguments.has 'i' then regex.folded else regex
  return if arguments.has 'x' then .both .start (.both regex .finish) else regex

/-- What some arguments ask for, and the operands after the pattern. -/
def Matching.read? (arguments : Arguments) : Option (Matching × List Octets) := do
  let given := (arguments.options.filter fun (option, _) ↦ option = 'e').map Prod.snd
  let operands := if given.isEmpty then arguments.operands.drop 1 else arguments.operands
  let patterns := if given.isEmpty then arguments.operands.take 1 else given
  let regex ← requestedRegex? arguments patterns
  return (
    { regex
      inverted := arguments.has 'v'
      numbered := arguments.has 'n'
      partsOnly := arguments.has 'o'
      countOnly := arguments.has 'c'
      namesOnly := arguments.has 'l'
      silent := arguments.has 'q'
      named := (1 < operands.length || arguments.has 'H') && !arguments.has 'h' }, operands)

/-- What is printed for the text of an operand, and how many of its lines are selected. -/
def Matching.select (matching : Matching) (operand : Octets) (text : Octets) : Octets × Nat :=
  let lines := (Text.brokenLines text).map fun line ↦
    if line.getLast? = some '\n' then line.dropLast else line
  let selected := (lines.zipIdx 1).filter fun (line, _) ↦
    matching.regex.isIn line != matching.inverted
  let name := if matching.named then operand ++ [':'] else []
  let shown (n : Nat) (line : Octets) : Octets :=
    name ++ (if matching.numbered then Octets.ofNat n ++ [':'] else []) ++ line ++ ['\n']
  let printed :=
    if matching.silent then []
    else if matching.namesOnly then if selected.isEmpty then [] else operand ++ ['\n']
    else if matching.countOnly then name ++ Octets.ofNat selected.length ++ ['\n']
    else if matching.partsOnly then
      selected.flatMap fun (line, n) ↦
        let parts := (matching.regex.occurrences line).1.map Regex.Occurrence.part
        (parts.filter fun part ↦ !part.isEmpty).flatMap (shown n)
    else selected.flatMap fun (line, n) ↦ shown n line
  (printed, selected.length)

/-- Prints the lines of its operands in which an expression matches. -/
def grep : Utility := fun inheritance args ↦ do
  let arguments := Arguments.read ['e'] args
  match Matching.read? arguments with
  | none =>
    inheritance.complain "grep: invalid pattern".toList
    return 2
  | some (matching, operands) =>
    let (found, sound) ← contents inheritance "grep" operands
    let results := found.map fun (operand, text) ↦
      matching.select (if operand.isEmpty then "(standard input)".toList else operand) text
    inheritance.print (results.flatMap Prod.fst)
    let selected := results.any fun (_, count) ↦ 0 < count
    return if selected && (sound || matching.silent) then 0 else if sound then 1 else 2

end Weave.Utility
