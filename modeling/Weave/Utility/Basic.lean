import Weave.System.Kernel

/-!
# Utilities

A utility is a program that is given its arguments and ends with a status. This file holds how
options are told from operands and how operands are read as files.

## Main definitions

* `Weave.Utility`: what a utility does.
* `Weave.Utility.Arguments`: options and operands.
* `Weave.Utility.contents`: the contents of operands.
-/

namespace Weave

/-- What a utility does with its arguments. Its result is its status. -/
abbrev Utility := Inheritance → List Octets → Proc Nat

namespace Utility

/-- The options of a utility, in order and with their values, and its operands. -/
structure Arguments where
  options : List (Char × Octets) := []
  operands : List Octets := []

namespace Arguments

/-- The arguments with an option in front. -/
def addOption (option : Char) (value : Octets) (arguments : Arguments) : Arguments :=
  { arguments with options := (option, value) :: arguments.options }

/-- The arguments with an operand in front. -/
def addOperand (operand : Octets) (arguments : Arguments) : Arguments :=
  { arguments with operands := operand :: arguments.operands }

/-- The options in the letters of one argument; an option that takes a value takes the other
letters, and is left open if there are none. -/
def cluster (valued : List Char) : Octets → List (Char × Octets) × Option Char
  | [] => ([], none)
  | c :: cs =>
    if c ∈ valued then if cs.isEmpty then ([], some c) else ([(c, cs)], none)
    else
      let (options, opened) := cluster valued cs
      ((c, []) :: options, opened)

/-- Tells options from operands. The options in `valued` take a value. -/
def read (valued : List Char) : List Octets → Arguments
  | [] => {}
  | ['-', '-'] :: rest => { operands := rest }
  | ('-' :: c :: cs) :: rest =>
    match cluster valued (c :: cs) with
    | (options, none) => options.foldr (fun (o, v) ↦ addOption o v) (read valued rest)
    | (options, some o) =>
      match rest with
      | [] => options.foldr (fun (o, v) ↦ addOption o v) {}
      | value :: rest =>
        options.foldr (fun (o, v) ↦ addOption o v) (addOption o value (read valued rest))
  | operand :: rest => addOperand operand (read valued rest)

/-- Whether an option is given. -/
def has (arguments : Arguments) (option : Char) : Bool :=
  arguments.options.any fun (o, _) ↦ o = option

/-- The value of the last option of a name. -/
def value? (arguments : Arguments) (option : Char) : Option Octets :=
  arguments.options.reverse.lookup option

end Arguments

/-- Reports that an operand could not be used. -/
def complainOf (inheritance : Inheritance) (utility : String) (operand : Octets)
    (fault : FileFault) : Proc Unit :=
  inheritance.complain
    (utility.toList ++ ": ".toList ++ operand ++ ": ".toList ++ Octets.ofText fault.label)

/-- The content of an operand; a minus sign stands for the standard input. -/
def content (inheritance : Inheritance) (operand : Octets) : Proc (Except FileFault Octets) := do
  if operand = ['-'] then return .ok (← inheritance.readAll)
  else
    let tree ← Kernel.files
    return (tree.read inheritance.dir (Octets.toText operand)).map Octets.ofBytes

/-- The contents of operands that can be read, with the operands, and whether all could be read.
Without operands it is the standard input. -/
def contents (inheritance : Inheritance) (utility : String) (operands : List Octets) :
    Proc (List (Octets × Octets) × Bool) := do
  if operands.isEmpty then return ([([], ← inheritance.readAll)], true)
  else
    let mut found := []
    let mut sound := true
    for operand in operands do
      match ← content inheritance operand with
      | .ok octets => found := found ++ [(operand, octets)]
      | .error fault =>
        complainOf inheritance utility operand fault
        sound := false
    return (found, sound)

/-- The status of a utility for which all was well or not. -/
def statusOf (sound : Bool) : Nat := if sound then 0 else 1

end Utility

end Weave
