import Weave.Text.Line
import Weave.Text.Regex.Reader
import Weave.Utility.Basic

/-!
# Editing lines

The utility that runs a script on every line of its operands and prints what becomes of the line.

## Main definitions

* `Weave.Utility.Edit`: the commands of a script.
* `Weave.Utility.Edit.readScript?`: scripts as they are written.
* `Weave.Utility.Edit.line`: what a script makes of a line.
* `Weave.Utility.sed`.
-/

namespace Weave.Utility

namespace Edit

/-! ### Scripts -/

/-- Which lines a command is for. -/
inductive Address where
  | number (n : Nat)
  | last
  | matching (regex : Regex)
  deriving Repr

/-- A part of what is put in the place of a match. -/
inductive Piece where
  | octet (c : Char)
  /-- What a group has matched; group zero is the whole match. -/
  | group (number : Nat)
  deriving Repr, DecidableEq

/-- A replacement. -/
structure Substitution where
  regex : Regex
  pieces : List Piece
  /-- The number of the match that is replaced. -/
  occurrence : Nat := 1
  /-- Whether the matches after it are replaced, too. -/
  onward : Bool := false
  printed : Bool := false
  deriving Repr

/-- What a command does. -/
inductive Deed where
  | substitute (substitution : Substitution)
  | translate (pairs : List (Char × Char))
  | print
  | delete
  | quit
  | number
  | append (text : Octets)
  | insert (text : Octets)
  | change (text : Octets)
  deriving Repr

/-- A command with the lines that it is for: all, those of an address, or those from one address to
another. -/
structure Command where
  first : Option Address := none
  second : Option Address := none
  negated : Bool := false
  deed : Deed
  deriving Repr

/-! ### Scripts as they are written -/

/-- A text up to a character that no backslash stands before, and what follows it. The backslash
before such a character is taken away, and one before a line feed's letter stands with it for a line
feed in an expression. -/
def delimited? (delimiter : Char) : Octets → Option (Octets × Octets)
  | [] => none
  | '\\' :: c :: cs => do
    let (text, rest) ← delimited? delimiter cs
    return (if c = delimiter then c :: text else '\\' :: c :: text, rest)
  | c :: cs =>
    if c = delimiter then some ([], cs)
    else do
      let (text, rest) ← delimited? delimiter cs
      return (c :: text, rest)

/-- The pieces of what is put in the place of a match. -/
def piecesOf : Octets → List Piece
  | [] => []
  | '\\' :: c :: cs =>
    let piece : Piece :=
      if c.isDigit then .group (c.toNat - 48)
      else if c = 'n' then .octet '\n'
      else if c = 't' then .octet '\t'
      else .octet c
    piece :: piecesOf cs
  | '&' :: cs => .group 0 :: piecesOf cs
  | c :: cs => .octet c :: piecesOf cs

/-- An address at the start of a text, and what follows. -/
def address? (extended : Bool) (text : Octets) : Option (Option Address × Octets) :=
  match text with
  | '$' :: rest => some (some .last, rest)
  | '/' :: rest => do
    let (inner, rest) ← delimited? '/' rest
    return (some (.matching (← Regex.read? extended inner)), rest)
  | _ =>
    let digits := text.takeWhile Char.isDigit
    match Octets.toNat? digits with
    | some n => some (some (.number n), text.drop digits.length)
    | none => some (none, text)

/-- The flags after a replacement, and what follows. -/
def flags (substitution : Substitution) : Octets → Substitution × Octets
  | 'g' :: rest => flags { substitution with onward := true } rest
  | 'p' :: rest => flags { substitution with printed := true } rest
  | 'i' :: rest | 'I' :: rest => flags { substitution with regex := substitution.regex.folded } rest
  | c :: rest =>
    if c.isDigit then flags { substitution with occurrence := c.toNat - 48 } rest
    else (substitution, c :: rest)
  | [] => (substitution, [])

/-- The text that a command puts before, after or in the place of a line, and what follows. -/
def lineText (text : Octets) : Octets × Octets :=
  let text := text.dropWhile Text.isSpaceOrTab
  let text :=
    match text with
    | '\\' :: '\n' :: rest => rest
    | '\\' :: rest => rest
    | _ => text
  let line := text.takeWhile (· ≠ '\n')
  (line ++ ['\n'], text.drop line.length)

/-- What a command does, from its letter on, and what follows. -/
def deed? (extended : Bool) : Octets → Option (Deed × Octets)
  | 'p' :: rest => some (.print, rest)
  | 'd' :: rest => some (.delete, rest)
  | 'q' :: rest => some (.quit, rest)
  | '=' :: rest => some (.number, rest)
  | 'a' :: rest => let (text, rest) := lineText rest; some (.append text, rest)
  | 'i' :: rest => let (text, rest) := lineText rest; some (.insert text, rest)
  | 'c' :: rest => let (text, rest) := lineText rest; some (.change text, rest)
  | 's' :: delimiter :: rest => do
    let (pattern, rest) ← delimited? delimiter rest
    let (replacement, rest) ← delimited? delimiter rest
    let regex ← Regex.read? extended pattern
    let (substitution, rest) := flags { regex, pieces := piecesOf replacement } rest
    return (.substitute substitution, rest)
  | 'y' :: delimiter :: rest => do
    let (old, rest) ← delimited? delimiter rest
    let (new, rest) ← delimited? delimiter rest
    if old.length = new.length then some (.translate (old.zip new), rest) else none
  | _ => none

/-- A character that separates commands. -/
def isSeparator (c : Char) : Bool := Text.isSpaceOrTab c || c = ';' || c = '\n'

/-- The command at the start of a text, and what follows. -/
def command? (extended : Bool) (text : Octets) : Option (Command × Octets) := do
  let (first, text) ← address? extended text
  let (second, text) ←
    match text with
    | ',' :: rest => address? extended rest
    | _ => some (none, text)
  let text := text.dropWhile Text.isSpaceOrTab
  let negated := text.head? = some '!'
  let text := (if negated then text.drop 1 else text).dropWhile Text.isSpaceOrTab
  let (deed, rest) ← deed? extended text
  return ({ first, second, negated, deed }, rest)

/-- The commands of a script, if it is well formed. -/
def readScript? (extended : Bool) : Nat → Octets → Option (List Command)
  | 0, _ => none
  | bound + 1, text =>
    match text.dropWhile isSeparator with
    | [] => some []
    | text => do
      let (command, rest) ← command? extended text
      if rest.isEmpty || (rest.head?.map isSeparator).getD false then
        return command :: (← readScript? extended bound rest)
      else none

/-! ### Lines -/

/-- How far a script has got. -/
structure Place where
  /-- The number of the last line. -/
  line : Nat := 0
  /-- The positions of the commands that are between their addresses. -/
  running : List Nat := []

/-- Whether an address is that of a line. -/
def Address.holds (address : Address) (n : Nat) (isLast : Bool) (text : Octets) : Bool :=
  match address with
  | .number m => m = n
  | .last => isLast
  | .matching regex => regex.isIn text

/-- Whether a range that starts at a line goes on after it. -/
def Address.isAhead (address : Address) (n : Nat) (isLast : Bool) : Bool :=
  match address with
  | .number m => n < m
  | .last => !isLast
  | .matching _ => true

/-- Whether a command is for a line, and whether it is between its addresses after it. -/
def Command.selects (command : Command) (isOpen : Bool) (n : Nat) (isLast : Bool) (text : Octets) :
    Bool × Bool :=
  match command.first, command.second with
  | none, _ => (true, false)
  | some first, none => (first.holds n isLast text, false)
  | some first, some second =>
    if isOpen then
      match second with
      | .number m => if m < n then (first.holds n isLast text, false) else (true, n < m)
      | _ => (true, !second.holds n isLast text)
    else if first.holds n isLast text then (true, second.isAhead n isLast)
    else (false, false)

/-- What is put in the place of a match. -/
def fill (pieces : List Piece) (found : Regex.Occurrence) : Octets :=
  pieces.flatMap fun
    | .octet c => [c]
    | .group 0 => found.part
    | .group n => (found.groups.lookup n).getD []

/-- Whether a replacement is made of the match with a number. -/
def Substitution.covers (substitution : Substitution) (number : Nat) : Bool :=
  number = substitution.occurrence || (substitution.occurrence < number && substitution.onward)

/-- A line after a replacement, if there was something to replace. -/
def Substitution.apply? (substitution : Substitution) (text : Octets) : Option Octets :=
  let (found, rest) := substitution.regex.occurrences text
  if found.length < substitution.occurrence then none
  else
    let replaced := (found.zipIdx 1).flatMap fun (o, number) ↦
      o.between ++ if substitution.covers number then fill substitution.pieces o else o.part
    some (replaced ++ rest)

/-- What becomes of a line: the line itself, what is printed before and after it, and whether the
script ends with it or the line is dropped. -/
structure Outcome where
  text : Octets
  before : Octets := []
  after : Octets := []
  dropped : Bool := false
  ended : Bool := false

/-- What a deed makes of a line. -/
def Deed.act (outcome : Outcome) (n : Nat) : Deed → Outcome
  | .substitute substitution =>
    match substitution.apply? outcome.text with
    | none => outcome
    | some text =>
      { outcome with
        text
        before := outcome.before ++ if substitution.printed then text ++ ['\n'] else [] }
  | .translate pairs =>
    { outcome with text := outcome.text.map fun c ↦ (pairs.lookup c).getD c }
  | .print => { outcome with before := outcome.before ++ outcome.text ++ ['\n'] }
  | .delete => { outcome with dropped := true }
  | .quit => { outcome with ended := true }
  | .number => { outcome with before := outcome.before ++ Octets.ofNat n ++ ['\n'] }
  | .append text => { outcome with after := outcome.after ++ text }
  | .insert text => { outcome with before := outcome.before ++ text }
  | .change text => { outcome with before := outcome.before ++ text, dropped := true }

/-- What a script makes of a line, and where it is then. A script goes no further with a line that
is dropped or ends it. -/
def line (script : List Command) (place : Place) (isLast : Bool) (text : Octets) :
    Outcome × Place :=
  let n := place.line + 1
  script.zipIdx.foldl (fun (outcome, place) (command, index) ↦
    if outcome.dropped || outcome.ended then (outcome, place)
    else
      let (selected, isOpen) := command.selects (place.running.contains index) n isLast outcome.text
      let others := place.running.filter (· ≠ index)
      let place := { place with running := if isOpen then index :: others else others }
      if selected != command.negated then (command.deed.act outcome n, place) else (outcome, place))
    ({ text }, { place with line := n })

/-- What is printed for a line with its line feed, if it has one. -/
def Outcome.printed (outcome : Outcome) (silent : Bool) (lineEnd : Octets) : Octets :=
  let own := if silent || outcome.dropped then [] else outcome.text ++ lineEnd
  outcome.before ++ own ++ outcome.after

/-- What a script prints for some lines. -/
def text (script : List Command) (silent : Bool) (place : Place) : List Octets → Octets
  | [] => []
  | whole :: rest =>
    let bare := if whole.getLast? = some '\n' then whole.dropLast else whole
    let (outcome, place) := line script place rest.isEmpty bare
    outcome.printed silent (whole.drop bare.length) ++
      if outcome.ended then [] else text script silent place rest

end Edit

/-- Runs a script on the standard input line by line, and prints what becomes of a line at once. -/
def editInput (inheritance : Inheritance) (script : List Edit.Command) (silent : Bool) :
    Proc Unit := do
  match inheritance.descriptors.lookup 0 with
  | none => return ()
  | some stream =>
    let _ ← iterate patience (fun (place : Edit.Place) ↦ do
      let whole ← Kernel.readLine stream
      if whole.isEmpty then return Sum.inr ()
      let bare := if whole.getLast? = some '\n' then whole.dropLast else whole
      let (outcome, place) := Edit.line script place false bare
      inheritance.print (outcome.printed silent (whole.drop bare.length))
      return if outcome.ended then Sum.inr () else Sum.inl place) {}

/-- Runs a script on every line of its operands. -/
def sed : Utility := fun inheritance args ↦ do
  let arguments := Arguments.read ['e'] args
  let given := (arguments.options.filter fun (option, _) ↦ option = 'e').map Prod.snd
  let operands := if given.isEmpty then arguments.operands.drop 1 else arguments.operands
  let source := Text.joinWith ['\n'] (if given.isEmpty then arguments.operands.take 1 else given)
  let silent := arguments.has 'n'
  let script? :=
    if given.isEmpty && arguments.operands.isEmpty then none
    else Edit.readScript? (arguments.has 'E' || arguments.has 'r') (source.length + 1) source
  match script? with
  | none =>
    inheritance.complain "sed: unknown command".toList
    return 1
  | some script =>
    if arguments.has 'u' && operands.isEmpty then
      editInput inheritance script silent
      return 0
    else
      let (found, sound) ← contents inheritance "sed" operands
      if arguments.has 'i' then
        for (operand, content) in found do
          let edited := (Edit.text script silent {} (Text.brokenLines content)).toBytes
          match (← Kernel.files).write inheritance.dir (Octets.toText operand) edited with
          | .ok tree => Kernel.setFiles tree
          | .error fault => complainOf inheritance "sed" operand fault
      else
        let whole := found.flatMap Prod.snd
        inheritance.print (Edit.text script silent {} (Text.brokenLines whole))
      return if sound then 0 else 2

end Weave.Utility
