import Weave.Text.Regex.Reader
import Weave.Utility.Basic

/-!
# Values of expressions

The utility that prints the value of an expression whose operands and operators are its arguments.

## Main definitions

* `Weave.Utility.Expression.value`: the value of an expression.
* `Weave.Utility.expr`.
-/

namespace Weave.Utility

namespace Expression

/-- Why an expression has no value. -/
inductive Failure where
  | malformed
  | notNumber
  | division
  deriving Repr, DecidableEq

/-- The wording of a failure. -/
def Failure.message : Failure → String
  | malformed => "expr: syntax error"
  | notNumber => "expr: non-integer argument"
  | division => "expr: division by zero"

/-- The value at the start of some arguments, and the arguments that follow. -/
abbrev Outcome := Except Failure (Octets × List Octets)

/-- Whether a value counts as false: it is empty or zero. -/
def isVoid (value : Octets) : Bool := value.isEmpty || Octets.toInt? value = some 0

/-- The truth of a condition as a value. -/
def truth (condition : Bool) : Octets := if condition then ['1'] else ['0']

/-- A value as a number. -/
def number (value : Octets) : Except Failure Int :=
  match Octets.toInt? value with
  | some n => .ok n
  | none => .error .notNumber

/-- How two values compare: as numbers if both are, else by their octets. -/
def compareValues (left right : Octets) : Ordering :=
  match Octets.toInt? left, Octets.toInt? right with
  | some a, some b => compare a b
  | _, _ =>
    let (a, b) := (left.map Char.toNat, right.map Char.toNat)
    if a < b then .lt else if b < a then .gt else .eq

/-- What an expression matches at the start of a value: the first group, or else the number of
octets. -/
def matched (value pattern : Octets) : Except Failure Octets :=
  match Regex.read? false pattern with
  | none => .error .malformed
  | some regex =>
    let hasGroup := (Text.breakOn? ['\\', '('] pattern).isSome
    match Regex.longest? (regex.advance { taken := [], left := value }) with
    | some p =>
      .ok (if hasGroup then (p.groups.lookup 1).getD [] else
        Octets.ofNat (value.length - p.left.length))
    | none => .ok (if hasGroup then [] else ['0'])

/-- What operators of one strength do, if there is one. -/
abbrev Level := Octets → Option (Octets → Octets → Except Failure Octets)

/-- The operators from the weakest to the strongest. -/
def levels : List Level :=
  let arithmetic (f : Int → Int → Int) : Option (Octets → Octets → Except Failure Octets) :=
    some fun left right ↦ do return Octets.ofInt (f (← number left) (← number right))
  let comparison (p : Ordering → Bool) : Option (Octets → Octets → Except Failure Octets) :=
    some fun left right ↦ .ok (truth (p (compareValues left right)))
  let quotient (f : Int → Int → Int) : Option (Octets → Octets → Except Failure Octets) :=
    some fun left right ↦ do
      let (a, b) := (← number left, ← number right)
      if b = 0 then throw .division else return Octets.ofInt (f a b)
  [fun operator ↦ if operator = ['|'] then some fun left right ↦
      .ok (if !isVoid left then left else if !isVoid right then right else ['0']) else none,
    fun operator ↦ if operator = ['&'] then some fun left right ↦
      .ok (if isVoid left || isVoid right then ['0'] else left) else none,
    fun operator ↦
      match String.ofList operator with
      | "<" => comparison (· == .lt)
      | "<=" => comparison (· != .gt)
      | "=" | "==" => comparison (· == .eq)
      | "!=" => comparison (· != .eq)
      | ">=" => comparison (· != .lt)
      | ">" => comparison (· == .gt)
      | _ => none,
    fun operator ↦
      match String.ofList operator with
      | "+" => arithmetic (· + ·)
      | "-" => arithmetic (· - ·)
      | _ => none,
    fun operator ↦
      match String.ofList operator with
      | "*" => arithmetic (· * ·)
      | "/" => quotient Int.tdiv
      | "%" => quotient Int.tmod
      | _ => none,
    fun operator ↦ if operator = [':'] then some matched else none]

/-- The value of a chain of operands between operators of one strength. -/
def chain (level : Level) (operand : List Octets → Outcome) : Nat → Octets → List Octets → Outcome
  | 0, _, _ => .error .malformed
  | _, left, [] => .ok (left, [])
  | bound + 1, left, operator :: rest =>
    match level operator with
    | none => .ok (left, operator :: rest)
    | some f => do
      let (right, rest) ← operand rest
      chain level operand bound (← f left right) rest

/-- An operand: a value, a function of values, or an expression in parentheses. -/
def operand (whole : List Octets → Outcome) : List Octets → Outcome
  | [] => .error .malformed
  | ['('] :: rest => do
    match ← whole rest with
    | (value, [')'] :: rest) => return (value, rest)
    | _ => throw .malformed
  | name :: rest =>
    match String.ofList name, rest with
    | "length", value :: rest => .ok (Octets.ofNat value.length, rest)
    | "match", value :: pattern :: rest => do return (← matched value pattern, rest)
    | "substr", value :: position :: length :: rest =>
      let taken :=
        match Octets.toNat? position, Octets.toNat? length with
        | some (position + 1), some length => (value.drop position).take length
        | _, _ => []
      .ok (taken, rest)
    | "index", value :: set :: rest =>
      let before := value.takeWhile fun c ↦ !set.contains c
      .ok (Octets.ofNat (if before.length < value.length then before.length + 1 else 0), rest)
    | _, _ => .ok (name, rest)

/-- The value of an expression with parentheses nested at most as deep as the bound. -/
def whole : Nat → List Octets → Outcome
  | 0, _ => .error .malformed
  | bound + 1, args =>
    let strongest := operand (whole bound)
    let join (level : Level) (inner : List Octets → Outcome) (args : List Octets) : Outcome := do
      let (left, rest) ← inner args
      chain level inner (args.length + 1) left rest
    levels.foldr join strongest args

/-- The value of an expression. -/
def value (args : List Octets) : Except Failure Octets := do
  match ← whole (args.length + 1) args with
  | (value, []) => return value
  | _ => throw .malformed

end Expression

/-- Prints the value of an expression. The status says whether it counts as false. -/
def expr : Utility := fun inheritance args ↦ do
  match Expression.value args with
  | .ok value =>
    inheritance.print (value ++ ['\n'])
    return if Expression.isVoid value then 1 else 0
  | .error failure =>
    inheritance.complain failure.message.toList
    return 2

end Weave.Utility
