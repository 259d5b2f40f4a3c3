import Weave.Utility.Basic
import Weave.Shell.Format
import Weave.Text.Line
import Weave.Text.Pattern

/-!
# Utilities on text

The utilities that read text and print a part of it, its lines in another order, or a measure of it.

## Main definitions

* `Weave.Utility.cat`, `Weave.Utility.head`, `Weave.Utility.tail`, `Weave.Utility.sort`,
  `Weave.Utility.uniq`, `Weave.Utility.cut`, `Weave.Utility.tr`, `Weave.Utility.wc`,
  `Weave.Utility.rev`, `Weave.Utility.tee`, `Weave.Utility.seq`, `Weave.Utility.yes`.
-/

namespace Weave.Utility

/-! ### Whole texts -/

/-- Passes the standard input on as it comes, and does something else with each part of it. -/
def passInput (inheritance : Inheritance) (also : Octets → Proc Unit) : Proc Unit := do
  let _ ← iterate patience (fun () ↦ do
    let part ← inheritance.readSome
    if part.isEmpty then return Sum.inr ()
    else
      inheritance.print part
      also part
      return Sum.inl ()) ()

/-- A line after its number. -/
def numbered (n : Nat) (line : Octets) : Octets :=
  let digits := Octets.ofNat n
  List.replicate (6 - digits.length) ' ' ++ digits ++ '\t' :: line

/-- Prints the contents of its operands. -/
def cat : Utility := fun inheritance args ↦ do
  let arguments := Arguments.read [] args
  if arguments.has 'n' then
    let (found, sound) ← contents inheritance "cat" arguments.operands
    let lines := Text.brokenLines (found.flatMap Prod.snd)
    inheritance.print ((lines.zipIdx 1).flatMap fun (line, n) ↦ numbered n line)
    return statusOf sound
  else if arguments.operands.isEmpty then
    passInput inheritance fun _ ↦ return ()
    return 0
  else
    let mut sound := true
    for operand in arguments.operands do
      if operand = ['-'] then passInput inheritance fun _ ↦ return ()
      else
        match ← content inheritance operand with
        | .ok octets => inheritance.print octets
        | .error fault =>
          complainOf inheritance "cat" operand fault
          sound := false
    return statusOf sound

/-- Prints the standard input and writes it to its operands. -/
def tee : Utility := fun inheritance args ↦ do
  let arguments := Arguments.read [] args
  let mut sound := true
  let mut streams := []
  for operand in arguments.operands do
    let path := Octets.toText operand
    match ← Kernel.openWrite inheritance.dir path (!arguments.has 'a') (arguments.has 'a') with
    | .ok stream => streams := streams ++ [stream]
    | .error fault =>
      complainOf inheritance "tee" operand fault
      sound := false
  passInput inheritance fun part ↦ streams.forM fun stream ↦ do let _ ← Kernel.write stream part
  return statusOf sound

/-! ### Parts of texts -/

/-- The arguments with a count that is written as an option of its own put in its usual form. -/
def withCount : List Octets → List Octets
  | ('-' :: c :: cs) :: rest =>
    if c.isDigit then ['-', 'n'] :: (c :: cs) :: rest else ('-' :: c :: cs) :: rest
  | args => args

/-- Prints a part of every operand that a choice of lines or octets takes. -/
def part (utility : String) (lines : Octets → List Octets → List Octets)
    (octets : Octets → Octets → Octets) : Utility := fun inheritance args ↦ do
  let arguments := Arguments.read ['n', 'c'] (withCount args)
  let (found, sound) ← contents inheritance utility arguments.operands
  let headed := 1 < arguments.operands.length && !arguments.has 'q'
  let mut first := true
  for (operand, text) in found do
    if headed then
      inheritance.print
        ((if first then [] else ['\n']) ++ "==> ".toList ++ operand ++ " <==\n".toList)
    first := false
    match arguments.value? 'c' with
    | some count => inheritance.print (octets count text)
    | none =>
      let count := (arguments.value? 'n').getD ['1', '0']
      inheritance.print (lines count (Text.brokenLines text)).flatten
  return statusOf sound

/-- The first elements of a list: a count, or all but a count after a minus sign. -/
def first {α : Type} (count : Octets) (list : List α) : List α :=
  match count with
  | '-' :: digits => list.take (list.length - (Octets.toNat? digits).getD 0)
  | digits => list.take ((Octets.toNat? digits).getD 0)

/-- The last elements of a list: a count, or all from a position after a plus sign. -/
def last {α : Type} (count : Octets) (list : List α) : List α :=
  match count with
  | '+' :: digits => list.drop ((Octets.toNat? digits).getD 0 - 1)
  | '-' :: digits => list.drop (list.length - (Octets.toNat? digits).getD 0)
  | digits => list.drop (list.length - (Octets.toNat? digits).getD 0)

/-- The standard input until enough of it has been read. A file is read line by line, so that what
follows is left to others. -/
def inputUntil (inheritance : Inheritance) (enough : Octets → Bool) : Proc Octets := do
  let read ← iterate patience (fun (before : Octets) ↦ do
    if enough before then return Sum.inr before
    let part ← inheritance.readPart
    return if part.isEmpty then Sum.inr before else Sum.inl (before ++ part)) []
  return read.getD []

/-- Prints the first lines of its operands. Of the standard input it reads no more than it has to.
-/
def head : Utility := fun inheritance args ↦ do
  let arguments := Arguments.read ['n', 'c'] (withCount args)
  let octets := (arguments.value? 'c').bind Octets.toNat?
  let lines := ((arguments.value? 'n').getD ['1', '0'] |> Octets.toNat?)
  match arguments.operands, octets, lines with
  | [], some count, _ =>
    let input ← inputUntil inheritance fun text ↦ count ≤ text.length
    inheritance.print (input.take count)
    return 0
  | [], none, some count =>
    let input ← inputUntil inheritance fun text ↦ count ≤ text.count '\n'
    inheritance.print ((Text.brokenLines input).take count).flatten
    return 0
  | _, _, _ => part "head" first first inheritance args

/-- Prints the last lines of its operands. -/
def tail : Utility := part "tail" last last

/-! ### Lines -/

/-- The lines of some texts without their line feeds. -/
def linesOf (found : List (Octets × Octets)) : List Octets :=
  found.flatMap fun (_, text) ↦ (Text.brokenLines text).map fun line ↦
    if line.getLast? = some '\n' then line.dropLast else line

/-- Lines as a text. -/
def unlines (lines : List Octets) : Octets := lines.flatMap (· ++ ['\n'])

/-- The whole number at the start of a line. -/
def leadingNumber (line : Octets) : Int :=
  match line.dropWhile Octets.isBlank with
  | '-' :: digits => -((Octets.toNat? (digits.takeWhile Char.isDigit)).getD 0 : Nat)
  | digits => ((Octets.toNat? (digits.takeWhile Char.isDigit)).getD 0 : Nat)

/-- The fields of a line: between separators, or each with the blanks in front of it. -/
def fieldsOf (separator : Option Char) (line : Octets) : List Octets :=
  match separator with
  | some separator => (Text.splitWhere (· = separator) line).map (· ++ [separator])
  | none => blankFields line.length line
where
  /-- The fields of a line with the blanks in front of them. -/
  blankFields : Nat → Octets → List Octets
    | 0, _ => []
    | _, [] => []
    | bound + 1, line =>
      let blanks := line.takeWhile Octets.isBlank
      let word := (line.drop blanks.length).takeWhile fun c ↦ !Octets.isBlank c
      (blanks ++ word) :: blankFields bound (line.drop (blanks.length + word.length))

/-- The part of a line that it is sorted by: some of its fields. -/
def keyOf (separator : Option Char) (key : Octets) (line : Octets) : Octets :=
  let positions := (Text.splitWhere (· = ',') key).map fun position ↦
    (Octets.toNat? (position.takeWhile Char.isDigit)).getD 0
  let fields := fieldsOf separator line
  match positions with
  | [low] => (fields.drop (low - 1)).flatten
  | low :: high :: _ => ((fields.take high).drop (low - 1)).flatten
  | [] => line

/-- Prints the lines of its operands in order. -/
def sort : Utility := fun inheritance args ↦ do
  let arguments := Arguments.read ['k', 't', 'o'] args
  let (found, sound) ← contents inheritance "sort" arguments.operands
  let key := (arguments.value? 'k').getD []
  let asked (option : Char) : Bool := arguments.has option || key.contains option
  let part (line : Octets) : Octets :=
    if key.isEmpty then line else keyOf ((arguments.value? 't').bind List.head?) key line
  let folded (line : Octets) : List Nat :=
    (part line).map fun c ↦ (if asked 'f' then c.toUpper else c).toNat
  let number (line : Octets) : Int := leadingNumber (part line)
  let before (a b : Octets) : Bool :=
    if asked 'n' && number a ≠ number b then number a < number b
    else if !asked 'n' && folded a ≠ folded b then decide (folded a < folded b)
    else decide (a.map Char.toNat < b.map Char.toNat)
  let same (a b : Octets) : Bool :=
    if asked 'n' then number a = number b else folded a = folded b
  let lines := (linesOf found).mergeSort fun a b ↦
    if asked 'r' then !before a b else !before b a
  let lines := if arguments.has 'u' then
      lines.foldr (fun line kept ↦
        match kept with
        | next :: _ => if same line next then line :: kept.drop 1 else line :: kept
        | [] => [line]) []
    else lines
  inheritance.print (unlines lines)
  return statusOf sound

/-- The runs of lines that are the same, each by its first line and with its length. -/
def runs (same : Octets → Octets → Bool) : List Octets → List (Octets × Nat)
  | [] => []
  | line :: rest =>
    match runs same rest with
    | (next, count) :: others =>
      if same line next then (line, count + 1) :: others else (line, 1) :: (next, count) :: others
    | [] => [(line, 1)]

/-- Prints one line of every run of equal lines. -/
def uniq : Utility := fun inheritance args ↦ do
  let arguments := Arguments.read [] args
  let (found, sound) ← contents inheritance "uniq" (arguments.operands.take 1)
  let folded (line : Octets) : Octets := if arguments.has 'i' then line.map Char.toLower else line
  let kept := (runs (folded · = folded ·) (linesOf found)).filter fun (_, count) ↦
    (!arguments.has 'd' || 1 < count) && (!arguments.has 'u' || count = 1)
  inheritance.print (unlines (kept.map fun (line, count) ↦
    if arguments.has 'c' then
      let digits := Octets.ofNat count
      List.replicate (7 - digits.length) ' ' ++ digits ++ ' ' :: line
    else line))
  return statusOf sound

/-- Prints the lines of its operands with their octets in reverse order. -/
def rev : Utility := fun inheritance args ↦ do
  let (found, sound) ← contents inheritance "rev" (Arguments.read [] args).operands
  inheritance.print (unlines ((linesOf found).map fun line ↦
    Octets.ofText (Octets.toText line).reverse))
  return statusOf sound

/-- Prints the lines of every operand from the last one to the first. -/
def tac : Utility := fun inheritance args ↦ do
  let (found, sound) ← contents inheritance "tac" (Arguments.read [] args).operands
  inheritance.print (found.flatMap fun (_, text) ↦ (Text.brokenLines text).reverse.flatten)
  return statusOf sound

/-- Prints the lines of its operands with the numbers of those that are not empty. -/
def nl : Utility := fun inheritance args ↦ do
  let (found, sound) ← contents inheritance "nl" (Arguments.read [] args).operands
  let (out, _) := (linesOf found).foldl (fun (out, n) line ↦
    if line.isEmpty then (out ++ List.replicate 7 ' ' ++ ['\n'], n)
    else (out ++ numbered n line ++ ['\n'], n + 1)) (([] : Octets), 1)
  inheritance.print out
  return statusOf sound

/-! ### Fields -/

/-- A list of positions: the ranges between commas, each with a first and a last position. -/
def positions (octets : Octets) : List (Nat × Option Nat) :=
  (Text.splitWhere (· = ',') octets).map fun range ↦
    match Text.splitOnce? (· = '-') range with
    | none => ((Octets.toNat? range).getD 0, Octets.toNat? range)
    | some (low, high) => ((Octets.toNat? low).getD 1, Octets.toNat? high)

/-- The elements of a list at some positions, which count from one. -/
def select {α : Type} (positions : List (Nat × Option Nat)) (list : List α) : List α :=
  ((list.zipIdx 1).filter fun (_, n) ↦
    positions.any fun (low, high) ↦ low ≤ n && high.all (n ≤ ·)).map Prod.fst

/-- Prints some octets or fields of every line. -/
def cut : Utility := fun inheritance args ↦ do
  let arguments := Arguments.read ['b', 'c', 'd', 'f'] args
  let (found, sound) ← contents inheritance "cut" arguments.operands
  let separator := ((arguments.value? 'd').bind List.head?).getD '\t'
  let one (line : Octets) : Option Octets :=
    match arguments.value? 'f' with
    | some list =>
      if line.contains separator then
        some (Text.joinWith [separator]
          (select (positions list) (Text.splitWhere (· = separator) line)))
      else if arguments.has 's' then none else some line
    | none =>
      let list := ((arguments.value? 'c').or (arguments.value? 'b')).getD []
      some (select (positions list) line)
  inheritance.print (unlines ((linesOf found).filterMap one))
  return statusOf sound

/-! ### Octets -/

/-- The octets from one to another. -/
def octetRange (low high : Char) : Octets :=
  (List.range (high.toNat + 1 - low.toNat)).map fun n ↦ Char.ofNat (low.toNat + n)

/-- The octets of the class of a name. -/
def octetClass (name : Octets) : Octets :=
  (CharClass.rangesOf name).flatMap fun (low, high) ↦ octetRange low high

/-- The octets that the operand of a replacement stands for. -/
def octetSet : Nat → Octets → Octets
  | 0, _ => []
  | _, [] => []
  | bound + 1, '[' :: ':' :: cs =>
    let name := cs.takeWhile (· ≠ ':')
    match cs.drop name.length with
    | ':' :: ']' :: rest => octetClass name ++ octetSet bound rest
    | _ => '[' :: octetSet bound (':' :: cs)
  | bound + 1, c :: cs =>
    let (low, rest) := if c = '\\' && !cs.isEmpty then Shell.Format.sequence cs else (c, cs)
    match rest with
    | '-' :: d :: after =>
      let (high, after) := if d = '\\' then Shell.Format.sequence after else (d, after)
      octetRange low high ++ octetSet bound after
    | _ => low :: octetSet bound rest

/-- Octets without those of a set that follow an equal one. -/
def squeeze (set : Char → Bool) : Octets → Octets
  | c :: d :: cs => if c = d && set c then squeeze set (d :: cs) else c :: squeeze set (d :: cs)
  | octets => octets

/-- Replaces, deletes or squeezes the octets of the standard input. -/
def tr : Utility := fun inheritance args ↦ do
  let arguments := Arguments.read [] args
  let sets := arguments.operands.map fun operand ↦ octetSet (operand.length + 1) operand
  let named := sets[0]?.getD []
  let complemented := arguments.has 'c' || arguments.has 'C'
  let isFirst (c : Char) : Bool := named.contains c != complemented
  let second := sets[1]?.getD []
  let replace (c : Char) : Char :=
    if !isFirst c then c
    else
      let position :=
        if complemented then second.length else named.length - 1 - named.reverse.idxOf c
      (second[position]?).getD (second.getLast?.getD c)
  let input ← inheritance.readAll
  if arguments.has 'd' then
    let kept := input.filter fun c ↦ !isFirst c
    inheritance.print (if arguments.has 's' then squeeze second.contains kept else kept)
  else if arguments.has 's' && sets.length < 2 then inheritance.print (squeeze isFirst input)
  else
    let replaced := input.map replace
    inheritance.print (if arguments.has 's' then squeeze second.contains replaced else replaced)
  return 0

/-! ### Repetition -/

/-- The number of lines that are printed where lines are printed without end. A process that reads
them starts when they have been printed, and gets as many as it asks for unless it asks for more. -/
def spate : Nat := 65536

/-- Prints its operands as a line over and over. -/
def yes : Utility := fun inheritance args ↦ do
  let line := if args.isEmpty then ['y'] else Text.joinWith [' '] args
  inheritance.print (List.replicate spate (line ++ ['\n'])).flatten
  return 0

/-! ### Measures -/

/-- The lines, words and octets of a text. -/
def measures (octets : Octets) : List Nat :=
  [octets.count '\n', (Text.words octets).length, octets.length]

/-- Prints the numbers of lines, words and octets of its operands. -/
def wc : Utility := fun inheritance args ↦ do
  let arguments := Arguments.read [] args
  let (found, sound) ← contents inheritance "wc" arguments.operands
  let wanted := [arguments.has 'l', arguments.has 'w', arguments.has 'c' || arguments.has 'm']
  let wanted := if wanted.any id then wanted else [true, true, true]
  let choose (counts : List Nat) : List Nat :=
    (counts.zip wanted).filterMap fun (n, take) ↦ if take then some n else none
  let rows := found.map fun (operand, text) ↦ (operand, choose (measures text))
  let total := choose (measures (found.flatMap Prod.snd))
  let rows := if 1 < arguments.operands.length then rows ++ [("total".toList, total)] else rows
  let columns := (wanted.filter id).length
  let size := (Octets.ofNat (found.foldl (fun n (_, text) ↦ n + text.length) 0)).length
  let width :=
    if columns = 1 && rows.length ≤ 1 then 1 else if arguments.operands.isEmpty then 7 else size
  let shown (row : Octets × List Nat) : Octets :=
    let numbers := row.2.map fun n ↦
      let digits := Octets.ofNat n
      List.replicate (width - digits.length) ' ' ++ digits
    Text.joinWith [' '] (numbers ++ if row.1.isEmpty then [] else [row.1])
  inheritance.print (unlines (rows.map shown))
  return statusOf sound

/-! ### Sequences -/

/-- How a sequence of numbers is printed. -/
structure SequenceLayout where
  separator : Octets := ['\n']
  /-- Whether all numbers are as wide as the widest. -/
  padded : Bool := false

/-- The layout that the options in front of some arguments ask for, and the other arguments. -/
def sequenceLayout (layout : SequenceLayout) : List Octets → SequenceLayout × List Octets
  | ['-', 'w'] :: rest => sequenceLayout { layout with padded := true } rest
  | ['-', 's'] :: separator :: rest => sequenceLayout { layout with separator } rest
  | ('-' :: 's' :: separator) :: rest => sequenceLayout { layout with separator } rest
  | rest => (layout, rest)

/-- The numbers from one to another. -/
def numbersFrom (low step high : Int) : List Octets :=
  let count : Nat :=
    if 0 < step then ((high - low) / step + 1).toNat
    else if step < 0 then ((low - high) / (-step) + 1).toNat
    else 0
  (List.range count).map fun (n : Nat) ↦ Octets.ofInt (low + n * step)

/-- A number with zeros in front of its digits. -/
def zeroPadded (width : Nat) (number : Octets) : Octets :=
  let zeros := List.replicate (width - number.length) '0'
  if number.head? = some '-' then '-' :: zeros ++ number.drop 1 else zeros ++ number

/-- Prints the numbers from one to another. -/
def seq : Utility := fun inheritance args ↦ do
  let (layout, operands) := sequenceLayout {} args
  match operands.mapM Octets.toInt? with
  | none =>
    inheritance.complain "seq: invalid argument".toList
    return 1
  | some limits =>
    let numbers :=
      match limits with
      | [high] => numbersFrom 1 1 high
      | [low, high] => numbersFrom low 1 high
      | [low, step, high] => numbersFrom low step high
      | _ => []
    let width := numbers.foldl (fun n number ↦ max n number.length) 0
    let shown := if layout.padded then numbers.map (zeroPadded width) else numbers
    if !shown.isEmpty then inheritance.print (Text.joinWith layout.separator shown ++ ['\n'])
    return statusOf (!limits.isEmpty)

end Weave.Utility
