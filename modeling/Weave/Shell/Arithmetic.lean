import Weave.Text.Octets
import Weave.Text.Search

/-!
# Arithmetic

Arithmetic expressions are read into trees and evaluated over signed words of 64 bits. Variables are
looked up by name, and assignments are handed back in the order in which they were made.

## Main definitions

* `Weave.Shell.Arithmetic.Expression`, `Weave.Shell.Arithmetic.Expression.evaluate`.
* `Weave.Shell.Arithmetic.read`: the expression of a text.
-/

namespace Weave.Shell.Arithmetic

/-- An operator with two operands. -/
inductive Operator where
  | times | divide | remainder
  | plus | minus
  | shiftLeft | shiftRight
  | less | lessEqual | greater | greaterEqual
  | equal | notEqual
  | bitAnd | bitXor | bitOr
  deriving Repr, DecidableEq

/-- An operator with one operand. -/
inductive Sign where
  | plus | minus | not | complement
  deriving Repr, DecidableEq

/-- An arithmetic expression. -/
inductive Expression where
  | number (value : Int)
  | named (name : Octets)
  | signed (sign : Sign) (operand : Expression)
  | binary (operator : Operator) (left right : Expression)
  | both (left right : Expression)
  | either (left right : Expression)
  | conditional (condition first second : Expression)
  /-- An assignment, of the old value combined with the new one if there is an operator. -/
  | assign (name : Octets) (operator : Option Operator) (value : Expression)
  deriving Repr

/-! ### Words -/

/-- The number of values of a word. -/
def wordSize : Nat := 18446744073709551616

/-- The word that a number wraps around to. -/
def wrap (n : Int) : Int := n.bmod wordSize

/-- The word of the bits of a natural number. -/
def ofBits (n : Nat) : Int := wrap n

/-- The bits of a word. -/
def bits (n : Int) : Nat := (n.emod wordSize).toNat

/-- A truth value as a number. -/
def ofBool (b : Bool) : Int := if b then 1 else 0

/-- What an operator makes of two words; a division by zero has no value. -/
def Operator.apply (left right : Int) : Operator → Option Int
  | times => some (wrap (left * right))
  | divide => if right = 0 then none else some (wrap (left.tdiv right))
  | remainder => if right = 0 then none else some (left.tmod right)
  | plus => some (wrap (left + right))
  | minus => some (wrap (left - right))
  | shiftLeft => some (wrap (left * (Nat.pow 2 (bits right % 64) : Nat)))
  | shiftRight => some (left.fdiv (Nat.pow 2 (bits right % 64)))
  | less => some (ofBool (left < right))
  | lessEqual => some (ofBool (left ≤ right))
  | greater => some (ofBool (right < left))
  | greaterEqual => some (ofBool (right ≤ left))
  | equal => some (ofBool (left = right))
  | notEqual => some (ofBool (left ≠ right))
  | bitAnd => some (ofBits (bits left &&& bits right))
  | bitXor => some (ofBits (bits left ^^^ bits right))
  | bitOr => some (ofBits (bits left ||| bits right))

/-- What a sign makes of a word. -/
def Sign.apply (operand : Int) : Sign → Int
  | plus => operand
  | minus => wrap (-operand)
  | not => ofBool (operand = 0)
  | complement => -operand - 1

/-! ### Numbers -/

/-- The value of a digit, of the letters too. -/
def digit? (c : Char) : Option Nat :=
  if c.isDigit then some (c.toNat - 48)
  else if 'a' ≤ c ∧ c ≤ 'f' then some (c.toNat - 87)
  else if 'A' ≤ c ∧ c ≤ 'F' then some (c.toNat - 55)
  else none

/-- The number that digits stand for in a base. -/
def ofDigits? (base : Nat) (digits : Octets) : Option Nat :=
  digits.foldlM (fun n c ↦ (digit? c).bind fun d ↦ if d < base then some (n * base + d) else none) 0

/-- The number that a numeral stands for: hexadecimal after `0x`, octal after another zero. -/
def numeral? : Octets → Option Nat
  | '0' :: 'x' :: digits => if digits.isEmpty then none else ofDigits? 16 digits
  | '0' :: 'X' :: digits => if digits.isEmpty then none else ofDigits? 16 digits
  | '0' :: digits => ofDigits? 8 digits
  | digits => if digits.isEmpty then none else ofDigits? 10 digits

/-- The number that the value of a variable stands for; a blank value stands for zero. -/
def valueOf? (octets : Octets) : Option Int :=
  match Text.trim octets with
  | [] => some 0
  | '-' :: digits => (numeral? digits).map fun n ↦ -(n : Int)
  | '+' :: digits => (numeral? digits).map Int.ofNat
  | digits => (numeral? digits).map Int.ofNat

/-! ### Reading -/

/-- The operators by falling strength; those of one list are of the same strength. -/
def levels : List (List (String × Operator)) :=
  [[("|", .bitOr)], [("^", .bitXor)], [("&", .bitAnd)],
    [("==", .equal), ("!=", .notEqual)],
    [("<=", .lessEqual), (">=", .greaterEqual), ("<", .less), (">", .greater)],
    [("<<", .shiftLeft), (">>", .shiftRight)],
    [("+", .plus), ("-", .minus)],
    [("*", .times), ("/", .divide), ("%", .remainder)]]

/-- The operators that can be combined with an assignment. -/
def assignments : List (String × Option Operator) :=
  [("<<=", some .shiftLeft), (">>=", some .shiftRight), ("*=", some .times), ("/=", some .divide),
    ("%=", some .remainder), ("+=", some .plus), ("-=", some .minus), ("&=", some .bitAnd),
    ("^=", some .bitXor), ("|=", some .bitOr)]

/-- The octets without the blanks at their start. -/
def afterBlanks (octets : Octets) : Octets := octets.dropWhile Octets.isBlank

/-- All operators. -/
def operatorTexts : List String :=
  ["<<=", ">>=", "*=", "/=", "%=", "+=", "-=", "&=", "^=", "|=", "<<", ">>", "<=", ">=", "==", "!=",
    "&&", "||", "<", ">", "=", "+", "-", "*", "/", "%", "&", "|", "^", "!", "~", "?", ":", "(", ")"]

/-- The operator at the start of some octets, the longest one, and what follows. -/
def operator? (octets : Octets) : Option (String × Octets) :=
  operatorTexts.findSome? fun text ↦
    (Text.after? text.toList (afterBlanks octets)).map fun rest ↦ (text, rest)

/-- A function that reads an expression at the start of some octets. -/
abbrev Reading := Octets → Option (Expression × Octets)

/-- The rest of a chain of operators of one level, after its first operand. -/
def chain (operand : Reading) (level : List (String × Operator)) (left : Expression) :
    Nat → Reading
  | 0, octets => some (left, octets)
  | bound + 1, octets =>
    match operator? octets with
    | none => some (left, octets)
    | some (text, rest) =>
      match level.lookup text with
      | none => some (left, octets)
      | some operator =>
        (operand rest).bind fun (right, rest) ↦
          chain operand level (.binary operator left right) bound rest

/-- An expression of operators of some levels. -/
def binary (operand : Reading) : List (List (String × Operator)) → Reading
  | [], octets => operand octets
  | level :: stronger, octets =>
    (binary operand stronger octets).bind fun (left, rest) ↦
      chain (binary operand stronger) level left rest.length rest

/-- The rest of a chain of one logical operator, after its first operand. -/
def logical (operand : Reading) (text : String) (join : Expression → Expression → Expression) :
    Nat → Reading
  | 0, _ => none
  | bound + 1, octets =>
    (operand octets).bind fun (left, rest) ↦
      match operator? rest with
      | some (found, after) =>
        if found = text then
          (logical operand text join bound after).map fun (right, rest) ↦ (join left right, rest)
        else some (left, rest)
      | none => some (left, rest)

/-- A name, a numeral, an expression in parentheses, or one of these with signs. -/
def primary (whole signed : Reading) : Reading := fun octets ↦
  match operator? octets with
  | some ("(", rest) =>
    (whole rest).bind fun (inside, rest) ↦
      match operator? rest with
      | some (")", rest) => some (inside, rest)
      | _ => none
  | some ("+", rest) => (signed rest).map fun (operand, rest) ↦ (.signed .plus operand, rest)
  | some ("-", rest) => (signed rest).map fun (operand, rest) ↦ (.signed .minus operand, rest)
  | some ("!", rest) => (signed rest).map fun (operand, rest) ↦ (.signed .not operand, rest)
  | some ("~", rest) => (signed rest).map fun (operand, rest) ↦ (.signed .complement operand, rest)
  | some _ => none
  | none =>
    let octets := afterBlanks octets
    let word := octets.takeWhile Octets.isNameChar
    let rest := octets.drop word.length
    if Octets.isName word then
      match operator? rest with
      | some ("=", after) =>
        (whole after).map fun (value, rest) ↦ (.assign word none value, rest)
      | some (text, after) =>
        match assignments.lookup text with
        | some operator =>
          (whole after).map fun (value, rest) ↦ (.assign word operator value, rest)
        | none => some (.named word, rest)
      | none => some (.named word, rest)
    else (numeral? word).map fun n ↦ (.number (wrap n), rest)

/-- A primary expression with at most as many signs as the bound says. -/
def signedPrimary (whole : Reading) : Nat → Reading
  | 0 => fun _ ↦ none
  | bound + 1 => primary whole (signedPrimary whole bound)

/-- An expression nested at most as deep as the bound. -/
def expression : Nat → Reading
  | 0, _ => none
  | bound + 1, octets =>
    let operand := binary (signedPrimary (expression bound) (octets.length + 1)) levels
    let both := logical operand "&&" .both (octets.length + 1)
    (logical both "||" .either (octets.length + 1) octets).bind fun (condition, rest) ↦
      match operator? rest with
      | some ("?", rest) =>
        (expression bound rest).bind fun (first, rest) ↦
          match operator? rest with
          | some (":", rest) =>
            (expression bound rest).map fun (second, rest) ↦
              (.conditional condition first second, rest)
          | _ => none
      | _ => some (condition, rest)

/-- The expression that some octets are; blank ones are zero. -/
def read (octets : Octets) : Option Expression :=
  if (afterBlanks octets).isEmpty then some (.number 0)
  else
    match expression (octets.length + 1) octets with
    | some (found, rest) => if (afterBlanks rest).isEmpty then some found else none
    | none => none

/-! ### Evaluation -/

/-- Why an expression has no value. -/
inductive Failure where
  | notExpression (octets : Octets)
  | divisionByZero
  | notNumber (octets : Octets)
  deriving Repr, DecidableEq

/-- The wording of a failure. -/
def Failure.message : Failure → Octets
  | notExpression octets =>
    "arithmetic expression: expecting primary: \"".toList ++ octets ++ ['\x22']
  | divisionByZero => "arithmetic expression: division by zero".toList
  | notNumber octets => "Illegal number: ".toList ++ octets

/-- The variables that have been assigned, the latest first. -/
abbrev Assigned := List (Octets × Int)

/-- The value of an expression. Variables that have not been assigned are looked up. -/
def Expression.evaluate (lookup : Octets → Octets) (assigned : Assigned) :
    Expression → Except Failure (Int × Assigned)
  | number value => .ok (value, assigned)
  | named name =>
    match assigned.lookup name with
    | some value => .ok (value, assigned)
    | none =>
      match valueOf? (lookup name) with
      | some value => .ok (wrap value, assigned)
      | none => .error (.notNumber (lookup name))
  | signed sign operand => do
    let (value, assigned) ← evaluate lookup assigned operand
    return (sign.apply value, assigned)
  | binary operator left right => do
    let (left, assigned) ← evaluate lookup assigned left
    let (right, assigned) ← evaluate lookup assigned right
    match operator.apply left right with
    | some value => .ok (value, assigned)
    | none => .error .divisionByZero
  | both left right => do
    let (left, assigned) ← evaluate lookup assigned left
    if left = 0 then return (0, assigned)
    else
      let (right, assigned) ← evaluate lookup assigned right
      return (ofBool (right ≠ 0), assigned)
  | either left right => do
    let (left, assigned) ← evaluate lookup assigned left
    if left ≠ 0 then return (1, assigned)
    else
      let (right, assigned) ← evaluate lookup assigned right
      return (ofBool (right ≠ 0), assigned)
  | conditional condition first second => do
    let (condition, assigned) ← evaluate lookup assigned condition
    if condition ≠ 0 then evaluate lookup assigned first else evaluate lookup assigned second
  | assign name operator value => do
    let (right, assigned) ← evaluate lookup assigned value
    match operator with
    | none => return (right, (name, right) :: assigned)
    | some operator =>
      let (left, assigned) ← evaluate lookup assigned (.named name)
      match operator.apply left right with
      | some value => .ok (value, (name, value) :: assigned)
      | none => .error .divisionByZero

end Weave.Shell.Arithmetic
