import Weave.Toml.Value
import Weave.Text.Search

/-!
# Keys and scalars of TOML

The four forms of strings, the keys, and the values that are written without quotes.

## Main definitions

* `Weave.Toml.string?`: a string at the start of a text.
* `Weave.Toml.key?`: a key with its parts.
* `Weave.Toml.bare?`: a value without quotes.

Every reader returns what it read and the text after it.
-/

namespace Weave.Toml

/-- A character that may stand in a comment or a string of one line. -/
def isPrintable (c : Char) : Bool := c = '\t' || (0x20 ≤ c.toNat && c.toNat ≠ 0x7F)

/-- A digit in base 16. -/
def hexDigit? (c : Char) : Option Nat :=
  if c.isDigit then some (c.toNat - '0'.toNat)
  else if 'a' ≤ c ∧ c ≤ 'f' then some (c.toNat - 'a'.toNat + 10)
  else if 'A' ≤ c ∧ c ≤ 'F' then some (c.toNat - 'A'.toNat + 10)
  else none

/-- The number of exactly `count` digits in base 16. -/
def hexNumber? : (count : Nat) → (value : Nat) → Text → Option (Nat × Text)
  | 0, value, t => some (value, t)
  | _ + 1, _, [] => none
  | count + 1, value, c :: cs => do hexNumber? count (value * 16 + (← hexDigit? c)) cs

/-- The character with a number that is given in base 16. -/
def codePoint? (count : Nat) (t : Text) : Option (Char × Text) := do
  let (n, rest) ← hexNumber? count 0 t
  if n.isValidChar then some (Char.ofNat n, rest) else none

/-- The character that an escape stands for; the text follows the backslash. -/
def escape? : Text → Option (Char × Text)
  | 'b' :: t => some ('\x08', t)
  | 't' :: t => some ('\t', t)
  | 'n' :: t => some ('\n', t)
  | 'f' :: t => some ('\x0c', t)
  | 'r' :: t => some ('\r', t)
  | 'e' :: t => some ('\x1b', t)
  | '\x22' :: t => some ('\x22', t)
  | '\\' :: t => some ('\\', t)
  | 'x' :: t => codePoint? 2 t
  | 'u' :: t => codePoint? 4 t
  | 'U' :: t => codePoint? 8 t
  | _ => none

/-- The text after a line end, if one starts it. -/
def afterNewline? : Text → Option Text
  | '\n' :: t => some t
  | '\r' :: '\n' :: t => some t
  | _ => none

/-- The text without one line end at its start. -/
def dropNewline (t : Text) : Text := (afterNewline? t).getD t

/-- The text after a backslash at the end of a line, without the blanks and line ends at its start;
`none` if the backslash does not end the line. -/
def afterLineJoin? (t : Text) : Option Text :=
  match afterNewline? (t.dropWhile Text.isSpaceOrTab) with
  | none => none
  | some rest => some (rest.dropWhile fun c ↦ Text.isSpaceOrTab c || Text.isLineBreak c)

/-- The rest of a string between double quotes. -/
def basic? : (fuel : Nat) → Text → Option (Text × Text)
  | 0, _ => none
  | _ + 1, [] => none
  | fuel + 1, c :: t =>
    if c = '\x22' then some ([], t)
    else if c = '\\' then do
      let (d, t) ← escape? t
      let (content, rest) ← basic? fuel t
      some (d :: content, rest)
    else if isPrintable c then do
      let (content, rest) ← basic? fuel t
      some (c :: content, rest)
    else none

/-- The rest of a string between single quotes. -/
def literal? : Text → Option (Text × Text)
  | [] => none
  | c :: t =>
    if c = '\x27' then some ([], t)
    else if isPrintable c then (literal? t).map fun (content, rest) ↦ (c :: content, rest)
    else none

/-- The quotes at the end of a string over several lines: three that close it, after at most two
that belong to it. -/
def closeQuotes? (quote : Char) (t : Text) : Option (Text × Text) :=
  let run := t.takeWhile (· = quote)
  if 3 ≤ run.length then
    let own := min (run.length - 3) 2
    some (List.replicate own quote, t.drop (own + 3))
  else none

/-- The rest of a string over several lines; only one between double quotes has escapes. -/
def multiline? (quote : Char) (escapes : Bool) : (fuel : Nat) → Text → Option (Text × Text)
  | 0, _ => none
  | fuel + 1, t =>
    match closeQuotes? quote t with
    | some closed => some closed
    | none =>
      match t with
      | [] => none
      | c :: cs =>
        let keep (d : Char) (cs : Text) := do
          let (content, rest) ← multiline? quote escapes fuel cs
          some (d :: content, rest)
        if c = '\\' && escapes then
          match afterLineJoin? cs with
          | some rest => multiline? quote escapes fuel rest
          | none => do
            let (d, cs) ← escape? cs
            keep d cs
        else if isPrintable c || c = '\n' || (c = '\r' && cs.head? = some '\n') then keep c cs
        else none

/-- A string. -/
def string? : Text → Option (Text × Text)
  | '\x22' :: '\x22' :: '\x22' :: t => multiline? '\x22' true (t.length + 1) (dropNewline t)
  | '\x27' :: '\x27' :: '\x27' :: t => multiline? '\x27' false (t.length + 1) (dropNewline t)
  | '\x22' :: t => basic? (t.length + 1) t
  | '\x27' :: t => literal? t
  | _ => none

/-- A character of a key without quotes. -/
def isBareKeyChar (c : Char) : Bool := c.isAlphanum || c = '_' || c = '-'

/-- One part of a key. -/
def keyPart? (t : Text) : Option (Text × Text) :=
  match t with
  | '\x22' :: t => basic? (t.length + 1) t
  | '\x27' :: t => literal? t
  | _ =>
    let part := t.takeWhile isBareKeyChar
    if part.isEmpty then none else some (part, t.drop part.length)

/-- A key: the parts before the last one, the last one, and the text after the key and the blanks
that follow it. -/
def key? : (fuel : Nat) → Text → Option (List Text × Text × Text)
  | 0, _ => none
  | fuel + 1, t => do
    let (part, t) ← keyPart? (t.dropWhile Text.isSpaceOrTab)
    match t.dropWhile Text.isSpaceOrTab with
    | '.' :: t => do
      let (path, last, rest) ← key? fuel t
      some (part :: path, last, rest)
    | rest => some ([], part, rest)

/-- The digits of a number: at least one that satisfies `isDigit`, with single underscores between
them. -/
def digits? (isDigit : Char → Bool) (t : Text) : Option Text :=
  let groups := Text.splitWhere (· = '_') t
  if groups.all fun g ↦ !g.isEmpty && g.all isDigit then some groups.flatten else none

/-- The number that digits mean in a base. -/
def number (base : Nat) (digits : Text) : Nat :=
  digits.foldl (fun n c ↦ n * base + (hexDigit? c).getD 0) 0

/-- Digits that mean a number in base ten: no zero stands before others. -/
def decimal? (t : Text) : Option Nat := do
  let digits ← digits? Char.isDigit t
  match digits with
  | '0' :: _ :: _ => none
  | _ => some (number 10 digits)

/-- The number of a value that is an integer. -/
def integer? : Text → Option Int
  | '0' :: 'x' :: t => (digits? (fun c ↦ (hexDigit? c).isSome) t).map (number 16 ·)
  | '0' :: 'o' :: t => (digits? (fun c ↦ '0' ≤ c && c ≤ '7') t).map (number 8 ·)
  | '0' :: 'b' :: t => (digits? (fun c ↦ c = '0' || c = '1') t).map (number 2 ·)
  | '-' :: t => (decimal? t).map fun n ↦ -(n : Int)
  | '+' :: t => (decimal? t).map fun n ↦ (n : Int)
  | t => (decimal? t).map fun n ↦ (n : Int)

/-- A text without a sign at its start. -/
def dropSign : Text → Text
  | '-' :: t => t
  | '+' :: t => t
  | t => t

/-- Whether a text is a number with a fraction or an exponent, or one of the names for infinity and
for what is no number. -/
def isFractional (t : Text) : Bool :=
  let t := dropSign t
  t = "inf".toList || t = "nan".toList ||
    let (mantissa, exponent) := ((Text.splitOnce? (fun c ↦ c = 'e' || c = 'E') t).map
      fun (m, e) ↦ (m, some (dropSign e))).getD (t, none)
    let (whole, fraction) := ((Text.splitOnce? (· = '.') mantissa).map
      fun (w, f) ↦ (w, some f)).getD (mantissa, none)
    (decimal? whole).isSome && (fraction.isSome || exponent.isSome) &&
      fraction.all (fun f ↦ (digits? Char.isDigit f).isSome) &&
      exponent.all (fun e ↦ (digits? Char.isDigit e).isSome)

/-- A text with every digit replaced by a zero. -/
def digitShape (t : Text) : Text := t.map fun c ↦ if c.isDigit then '0' else c

/-- Whether a text has the shape of a time of the day. -/
def isTime (t : Text) : Bool :=
  let (clock, fraction) := ((Text.splitOnce? (· = '.') t).map
    fun (c, f) ↦ (c, some f)).getD (t, none)
  let shape := digitShape clock
  (shape = "00:00:00".toList || (shape = "00:00".toList && fraction.isNone)) &&
    fraction.all (fun f ↦ !f.isEmpty && f.all Char.isDigit)

/-- The text of a time without the distance from universal time. -/
def dropOffset (t : Text) : Text :=
  match t.getLast? with
  | some 'Z' => t.dropLast
  | some 'z' => t.dropLast
  | _ =>
    match digitShape (t.drop (t.length - 6)) with
    | '+' :: '0' :: '0' :: ':' :: '0' :: '0' :: _ => t.take (t.length - 6)
    | '-' :: '0' :: '0' :: ':' :: '0' :: '0' :: _ => t.take (t.length - 6)
    | _ => t

/-- Whether a text has the shape of a date, of a time, or of both. -/
def isDateTime (t : Text) : Bool :=
  isTime t ||
    digitShape (t.take 10) = "0000-00-00".toList &&
      match t.drop 10 with
      | [] => true
      | c :: time => (c = 'T' || c = 't' || c = ' ') && isTime (dropOffset time)

/-- A character of a value without quotes. -/
def isBareValueChar (c : Char) : Bool :=
  c.isAlphanum || c = '_' || c = '-' || c = '+' || c = '.' || c = ':'

/-- A value without quotes. A date may be parted from its time by a space. -/
def bare? (t : Text) : Option (Value × Text) :=
  let word := t.takeWhile isBareValueChar
  let rest := t.drop word.length
  let (word, rest) :=
    match digitShape word, rest with
    | ['0', '0', '0', '0', '-', '0', '0', '-', '0', '0'], ' ' :: d :: more =>
      if d.isDigit then
        let time := (d :: more).takeWhile isBareValueChar
        (word ++ ' ' :: time, (d :: more).drop time.length)
      else (word, rest)
    | _, _ => (word, rest)
  if word = "true".toList || word = "false".toList then some (.scalar word, rest)
  else
    match integer? word with
    | some n => some (.integer n, rest)
    | none => if isFractional word || isDateTime word then some (.scalar word, rest) else none

end Weave.Toml
