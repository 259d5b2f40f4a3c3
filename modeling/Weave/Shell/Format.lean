import Weave.Text.Octets

/-!
# Formatted output

What the commands print that take their output from their arguments: backslash sequences, and
formats with directives that the arguments fill in. A format is used again as long as arguments are
left.

## Main definitions

* `Weave.Shell.Format.unescape`: a text with its backslash sequences replaced.
* `Weave.Shell.Format.echo`: the arguments as one line.
* `Weave.Shell.Format.render`: a format filled in.
-/

namespace Weave.Shell.Format

/-! ### Backslash sequences -/

/-- The octal digits at the start of some octets, at most `count`. -/
def octalDigits (count : Nat) (octets : Octets) : Octets :=
  (octets.take count).takeWhile fun c ↦ '0' ≤ c && c ≤ '7'

/-- The octet of an octal number. -/
def ofOctal (digits : Octets) : Char :=
  Char.ofNat (digits.foldl (fun n c ↦ n * 8 + (c.toNat - 48)) 0 % 256)

/-- What the octets after a backslash stand for, and what follows. A backslash before any other
octet stands for itself. -/
def sequence : Octets → Char × Octets
  | 'a' :: cs => ('\x07', cs)
  | 'b' :: cs => ('\x08', cs)
  | 'e' :: cs => ('\x1b', cs)
  | 'f' :: cs => ('\x0c', cs)
  | 'n' :: cs => ('\n', cs)
  | 'r' :: cs => ('\r', cs)
  | 't' :: cs => ('\t', cs)
  | 'v' :: cs => ('\x0b', cs)
  | '\\' :: cs => ('\\', cs)
  | cs =>
    match octalDigits 3 cs with
    | [] => ('\\', cs)
    | digits => (ofOctal digits, cs.drop digits.length)

/-- A text with its backslash sequences replaced, and whether one of them ends all output. -/
def unescapeFrom : Nat → Octets → Octets × Bool
  | 0, octets => (octets, false)
  | _, [] => ([], false)
  | _ + 1, '\\' :: 'c' :: _ => ([], true)
  | bound + 1, '\\' :: '0' :: cs =>
    let digits := octalDigits 3 cs
    let (more, stopped) := unescapeFrom bound (cs.drop digits.length)
    (ofOctal digits :: more, stopped)
  | bound + 1, '\\' :: cs =>
    let (c, rest) := sequence cs
    let (more, stopped) := unescapeFrom bound rest
    (c :: more, stopped)
  | bound + 1, c :: cs =>
    let (more, stopped) := unescapeFrom bound cs
    (c :: more, stopped)

/-- A text with its backslash sequences replaced, and whether one of them ends all output. -/
def unescape (octets : Octets) : Octets × Bool := unescapeFrom octets.length octets

/-- The arguments as one line, with blanks between them. A first argument `-n` leaves the line feed
out. -/
def echo (args : List Octets) : Octets :=
  let (bare, args) :=
    match args with
    | ['-', 'n'] :: rest => (true, rest)
    | args => (false, args)
  let (out, stopped) := unescape (Text.joinWith [' '] args)
  if bare || stopped then out else out ++ ['\n']

/-! ### Directives -/

/-- A directive of a format. -/
structure Directive where
  left : Bool
  zeros : Bool
  plus : Bool
  blank : Bool
  alternate : Bool
  width : Nat
  precision : Option Nat
  conversion : Char

namespace Directive

/-- A text filled up to the width of a directive. -/
def fill (directive : Directive) (text : Octets) : Octets :=
  let padding := List.replicate (directive.width - text.length) ' '
  if directive.left then text ++ padding else padding ++ text

/-- A number filled up to the width of a directive; zeros stand between its sign and its digits. -/
def fillNumber (directive : Directive) (sign digits : Octets) (zeros : Bool) : Octets :=
  if zeros && directive.zeros && !directive.left then
    sign ++ List.replicate (directive.width - sign.length - digits.length) '0' ++ digits
  else directive.fill (sign ++ digits)

/-- The digits of a number, at least as many as the precision says. -/
def atLeast (directive : Directive) (digits : Octets) : Octets :=
  match directive.precision with
  | none => digits
  | some 0 => if digits = ['0'] then [] else digits
  | some count => List.replicate (count - digits.length) '0' ++ digits

/-- The sign of a number. -/
def sign (directive : Directive) (negative : Bool) : Octets :=
  if negative then ['-']
  else if directive.plus then ['+']
  else if directive.blank then [' ']
  else []

/-- A signed number as a directive shows it. -/
def showInt (directive : Directive) (n : Int) : Octets :=
  directive.fillNumber (directive.sign (n < 0)) (directive.atLeast (Octets.ofNat n.natAbs))
    directive.precision.isNone

/-- An unsigned number as a directive shows it. -/
def showNat (directive : Directive) (base : Nat) (mark : Octets) (upper : Bool) (n : Int) :
    Octets :=
  let word := (n.emod 18446744073709551616).toNat
  let digits := (Nat.toDigits base word).map fun c ↦ if upper then c.toUpper else c
  let mark := if directive.alternate && word ≠ 0 then mark else []
  directive.fillNumber mark (directive.atLeast digits) directive.precision.isNone

/-- A decimal number, given as the digits of a whole and how many of them stand behind the point,
with the places that a directive asks for. A half is rounded to the even neighbour. -/
def showDecimal (directive : Directive) (negative : Bool) (digits places : Nat) : Octets :=
  let wanted := directive.precision.getD 6
  let whole := Nat.pow 10 wanted
  let unit := Nat.pow 10 places
  let scaled := digits * whole
  let rounded :=
    if 2 * (scaled % unit) < unit then scaled / unit
    else if unit < 2 * (scaled % unit) then scaled / unit + 1
    else scaled / unit + scaled / unit % 2
  let before := Octets.ofNat (rounded / whole)
  let after := Octets.ofNat (rounded % whole)
  let shown :=
    if wanted = 0 then before
    else before ++ '.' :: List.replicate (wanted - after.length) '0' ++ after
  directive.fillNumber (directive.sign negative) shown true

end Directive

/-! ### Arguments -/

/-- The number at the start of an argument, and whether the argument is nothing else. The number of
a character is written with a quote before it. -/
def number (argument : Octets) : Int × Bool :=
  match argument with
  | '\x27' :: c :: _ => (c.toNat, true)
  | '\x22' :: c :: _ => (c.toNat, true)
  | _ =>
    let trimmed := argument.dropWhile Octets.isBlank
    let (negative, digits) :=
      match trimmed with
      | '-' :: cs => (true, cs)
      | '+' :: cs => (false, cs)
      | cs => (false, cs)
    let (base, digits) :=
      match digits with
      | '0' :: 'x' :: cs => (16, cs)
      | '0' :: 'X' :: cs => (16, cs)
      | '0' :: cs => (8, '0' :: cs)
      | cs => (10, cs)
    let value (c : Char) : Nat :=
      if c.isDigit then c.toNat - 48
      else if c.isLower then c.toNat - 87
      else if c.isUpper then c.toNat - 55 else 99
    let taken := digits.takeWhile fun c ↦ c.isAlphanum && value c < base
    let n : Nat := taken.foldl (fun n c ↦ n * base + value c) 0
    (if negative then -(n : Int) else n,
      argument.isEmpty || (!taken.isEmpty && taken.length = digits.length))

/-- The decimal number that an argument stands for: its sign, its digits, how many of them stand
behind the point, and whether the argument is nothing else. -/
def decimal (argument : Octets) : Bool × Nat × Nat × Bool :=
  let (negative, body) :=
    match argument with
    | '-' :: cs => (true, cs)
    | '+' :: cs => (false, cs)
    | cs => (false, cs)
  let whole := body.takeWhile Char.isDigit
  let (fraction, rest) :=
    match body.drop whole.length with
    | '.' :: cs => (cs.takeWhile Char.isDigit, cs.dropWhile Char.isDigit)
    | cs => ([], cs)
  let digits := (whole ++ fraction).foldl (fun n c ↦ n * 10 + (c.toNat - 48)) 0
  (negative, digits, fraction.length, rest.isEmpty)

/-- What is printed, which arguments are left, the status, and whether output ends. -/
structure Progress where
  /-- What has been printed, the latest first. -/
  printed : List Octets := []
  args : List Octets
  /-- One if an argument was not sound, and two after a directive that there is not. -/
  status : Nat := 0
  stopped : Bool := false

namespace Progress

/-- Takes the next argument; an empty one if none is left. -/
def next (progress : Progress) : Octets × Progress :=
  match progress.args with
  | [] => ([], progress)
  | argument :: rest => (argument, { progress with args := rest })

/-- Prints octets. -/
def print (progress : Progress) (octets : Octets) : Progress :=
  { progress with printed := octets :: progress.printed }

/-- Notes whether an argument was sound. -/
def note (progress : Progress) (sound : Bool) : Progress :=
  { progress with status := if sound then progress.status else max 1 progress.status }

/-- What an unsigned number is less than. -/
def wordLimit : Int := 18446744073709551616

/-- What a signed number is less than. -/
def halfLimit : Int := 9223372036854775808

/-- Prints the next argument as a directive says. -/
def apply (directive : Directive) (progress : Progress) : Progress :=
  let (argument, after) := progress.next
  let cut (octets : Octets) : Octets :=
    match directive.precision with
    | none => octets
    | some count => octets.take count
  let unsigned (base : Nat) (mark : Octets) (upper : Bool) : Progress :=
    let (n, sound) := number argument
    let fits := -wordLimit < n ∧ n < wordLimit
    (after.print (directive.showNat base mark upper (if fits then n else wordLimit - 1))).note
      (sound && fits)
  match directive.conversion with
  | 's' => after.print (directive.fill (cut argument))
  | 'c' => after.print (directive.fill [argument.headD '\x00'])
  | 'b' =>
    let (text, stopped) := unescape argument
    { after.print (directive.fill (cut text)) with stopped }
  | 'd' | 'i' =>
    let (n, sound) := number argument
    let shown := max (-halfLimit) (min n (halfLimit - 1))
    (after.print (directive.showInt shown)).note (sound && shown = n)
  | 'u' => unsigned 10 [] false
  | 'o' => unsigned 8 ['0'] false
  | 'x' => unsigned 16 ['0', 'x'] false
  | 'X' => unsigned 16 ['0', 'X'] true
  | 'f' | 'F' =>
    let (negative, digits, places, sound) := decimal argument
    (after.print (directive.showDecimal negative digits places)).note sound
  | _ => { progress with status := 2, stopped := true }

end Progress

/-- A width or a precision at the start of some octets, which an asterisk takes from the arguments.
-/
def measure (octets : Octets) (progress : Progress) : Int × Octets × Progress :=
  match octets with
  | '*' :: cs =>
    let (argument, progress) := progress.next
    ((number argument).1, cs, progress)
  | _ =>
    let digits := octets.takeWhile Char.isDigit
    (((Octets.toNat? digits).getD 0 : Nat), octets.drop digits.length, progress)

/-- Reads a directive, whose percent sign has been read, and prints what it says. -/
def directive (octets : Octets) (progress : Progress) : Octets × Progress :=
  let flags := octets.takeWhile (· ∈ ['#', '-', '+', ' ', '0'])
  let (width, octets, progress) := measure (octets.drop flags.length) progress
  let (precision, octets, progress) :=
    match octets with
    | '.' :: cs =>
      let (n, rest, progress) := measure cs progress
      (if n < 0 then none else some n.toNat, rest, progress)
    | _ => (none, octets, progress)
  match octets with
  | [] => ([], { progress with status := 2, stopped := true })
  | conversion :: rest =>
    let found : Directive :=
      { left := flags.contains '-' || width < 0
        zeros := flags.contains '0'
        plus := flags.contains '+'
        blank := flags.contains ' '
        alternate := flags.contains '#'
        width := width.natAbs
        precision
        conversion }
    (rest, progress.apply found)

/-- A format filled in once. -/
def once : Nat → Octets → Progress → Progress
  | 0, _, progress => progress
  | _, [], progress => progress
  | bound + 1, c :: cs, progress =>
    if progress.stopped then progress
    else if c = '\\' then
      let (c, rest) := sequence cs
      once bound rest (progress.print [c])
    else if c = '%' then
      if cs.head? = some '%' then once bound (cs.drop 1) (progress.print ['%'])
      else
        let (rest, progress) := directive cs progress
        once bound rest progress
    else once bound cs (progress.print [c])

/-- A format filled in again and again until no argument is left. -/
def repeated (format : Octets) : Nat → Progress → Progress
  | 0, progress => progress
  | bound + 1, progress =>
    let after := once format.length format progress
    if after.stopped || after.args.isEmpty || after.args.length = progress.args.length then after
    else repeated format bound after

/-- A format filled in with arguments, and the status. -/
def render (format : Octets) (args : List Octets) : Octets × Nat :=
  let progress := repeated format (args.length + 1) { args }
  (progress.printed.reverse.flatten, progress.status)

end Weave.Shell.Format
