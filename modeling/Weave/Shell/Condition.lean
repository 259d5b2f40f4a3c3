import Weave.Files.Tree
import Weave.Text.Octets

/-!
# Conditions

The conditions that can be tested: of texts, of numbers and of files, with negation, conjunction,
disjunction and parentheses. Short conditions are read by the number of their arguments.

## Main definitions

* `Weave.Shell.Condition.holds`: whether a condition holds.
-/

namespace Weave.Shell.Condition

/-- Why a condition cannot be tested. -/
inductive Failure where
  | notNumber (octets : Octets)
  | operandExpected
  | unexpected (octets : Octets)
  deriving Repr, DecidableEq

/-- The wording of a failure. -/
def Failure.message : Failure → Octets
  | notNumber octets => "Illegal number: ".toList ++ octets
  | operandExpected => "argument expected".toList
  | unexpected octets => octets ++ ": unexpected operator".toList

/-- Where conditions of files are tested. -/
structure Scene where
  tree : FileTree
  dir : List Text

/-- What is at a path. -/
def Scene.get? (scene : Scene) (path : Octets) : Option FileTree.Entry :=
  match scene.tree.locate scene.dir (Octets.toText path) with
  | .ok (_, entry) => entry
  | .error _ => none

/-- A condition of one operand. -/
def unary? (scene : Scene) (operator : Octets) : Option (Octets → Bool) :=
  let file (p : FileTree.Entry → Bool) : Option (Octets → Bool) :=
    some fun path ↦ (scene.get? path).any p
  match String.ofList operator with
  | "-n" => some fun text ↦ !text.isEmpty
  | "-z" => some List.isEmpty
  | "-e" => file fun _ ↦ true
  | "-f" => file fun entry ↦ match entry with | .file .. => true | _ => false
  | "-d" => file (· == .directory)
  | "-s" => file fun entry ↦
      match entry with | .file content _ => !content.isEmpty | .directory => true | _ => false
  | "-r" => file fun _ ↦ true
  | "-w" => file fun _ ↦ true
  | "-x" => file fun entry ↦
      match entry with | .file _ executable => executable | .directory => true | _ => false
  | "-c" => file (· == .null)
  | "-h" | "-L" => some fun path ↦
      match scene.tree.locateWith false scene.dir (Octets.toText path) with
      | .ok (_, some (.link _)) => true
      | _ => false
  | "-t" | "-p" | "-S" | "-b" | "-g" | "-u" | "-k" => some fun _ ↦ false
  | _ => none

/-- The number that an operand stands for. -/
def number (operand : Octets) : Except Failure Int :=
  match Octets.toInt? (Text.trim operand) with
  | some n => .ok n
  | none => .error (.notNumber operand)

/-- A condition of two operands. -/
def binary? (operator : Octets) : Option (Octets → Octets → Except Failure Bool) :=
  let compare (p : Int → Int → Bool) : Option (Octets → Octets → Except Failure Bool) :=
    some fun left right ↦ do return p (← number left) (← number right)
  let order (octets : Octets) := octets.map Char.toNat
  match String.ofList operator with
  | "=" | "==" => some fun left right ↦ .ok (left = right)
  | "!=" => some fun left right ↦ .ok (left ≠ right)
  | "<" => some fun left right ↦ .ok (decide (order left < order right))
  | ">" => some fun left right ↦ .ok (decide (order right < order left))
  | "-eq" => compare fun a b ↦ a = b
  | "-ne" => compare fun a b ↦ a ≠ b
  | "-lt" => compare fun a b ↦ a < b
  | "-le" => compare fun a b ↦ a ≤ b
  | "-gt" => compare fun a b ↦ b < a
  | "-ge" => compare fun a b ↦ b ≤ a
  | _ => none

/-- The outcome of a condition at the start of some arguments, and the arguments that follow it. -/
abbrev Outcome := Except Failure (Bool × List Octets)

/-- A condition without connectives. -/
def primary (scene : Scene) (whole : List Octets → Outcome) : List Octets → Outcome
  | [] => .error .operandExpected
  | left :: operator :: right :: rest =>
    match binary? operator with
    | some compare => do return (← compare left right, rest)
    | none =>
      if left = ['('] then do
        match ← whole (operator :: right :: rest) with
        | (outcome, [')'] :: rest) => return (outcome, rest)
        | _ => throw .operandExpected
      else
        match unary? scene left with
        | some p => .ok (p operator, right :: rest)
        | none => .ok (!left.isEmpty, operator :: right :: rest)
  | [operator, operand] =>
    match unary? scene operator with
    | some p => .ok (p operand, [])
    | none => .ok (!operator.isEmpty, [operand])
  | [operand] => .ok (!operand.isEmpty, [])

/-- A condition that may be negated. -/
def negated (one : List Octets → Outcome) : List Octets → Outcome
  | ['!'] :: operand :: rest => do
    let (outcome, rest) ← negated one (operand :: rest)
    return (!outcome, rest)
  | args => one args

/-- Conditions of which all have to hold. -/
def conjunction (one : List Octets → Outcome) : Nat → List Octets → Outcome
  | 0, _ => .error .operandExpected
  | bound + 1, args => do
    match ← negated one args with
    | (left, ['-', 'a'] :: rest) =>
      let (right, rest) ← conjunction one bound rest
      return (left && right, rest)
    | outcome => return outcome

/-- Conditions of which one has to hold. -/
def disjunction (one : List Octets → Outcome) : Nat → List Octets → Outcome
  | 0, _ => .error .operandExpected
  | bound + 1, args => do
    match ← conjunction one (bound + 1) args with
    | (left, ['-', 'o'] :: rest) =>
      let (right, rest) ← disjunction one bound rest
      return (left || right, rest)
    | outcome => return outcome

/-- A condition with parentheses nested at most as deep as the bound. -/
def whole (scene : Scene) : Nat → List Octets → Outcome
  | 0, _ => .error .operandExpected
  | bound + 1, args => disjunction (primary scene (whole scene bound)) args.length args

/-- Whether a condition holds. -/
def holds (scene : Scene) (args : List Octets) : Except Failure Bool :=
  match args with
  | [] => .ok false
  | [operand] => .ok (!operand.isEmpty)
  | [['!'], operand] => .ok operand.isEmpty
  | _ => do
    match ← whole scene args.length args with
    | (outcome, []) => return outcome
    | (_, operand :: _) => throw (.unexpected operand)

end Weave.Shell.Condition
