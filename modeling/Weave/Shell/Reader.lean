import Weave.Shell.Syntax

/-!
# Reading words

A word is read character by character. Quotes, dollars and backquotes open parts of their own, and
what ends the word depends on where it stands.

## Main definitions

* `Weave.Shell.Fault`, `Weave.Shell.Input`, `Weave.Shell.Reader`: reading with two kinds of failure.
* `Weave.Shell.Mode`: where a word stands.
* `Weave.Shell.Reader.parts`: the parts of a word.
-/

namespace Weave.Shell

/-- Why a text is not a command. -/
inductive Fault where
  | unexpected (what : Octets)
  /-- The text ends too soon. More text may complete the command. -/
  | unfinished (what : Octets)

/-- The wording of a fault. -/
def Fault.message : Fault → Octets
  | unexpected what => "Syntax error: ".toList ++ what
  | unfinished what => "Syntax error: ".toList ++ what

/-- What is still to be read. -/
structure Input where
  rest : Octets
  /-- Whether nothing can follow the text. -/
  final : Bool

/-- A function that reads a part of the input. -/
abbrev Reader := StateT Input (Except Fault)

/-- Where a word stands. -/
inductive Mode where
  | bare
  | double
  | braced (quoted : Bool)
  /-- An arithmetic expression with `depth` open parentheses. -/
  | arithmetic (depth : Nat)
  | document

namespace Mode

/-- Whether what stands there is quoted. -/
def quoted : Mode → Bool
  | bare => false
  | braced quoted => quoted
  | double | arithmetic _ | document => true

/-- A character that ends a bare word. -/
def isMeta (c : Char) : Bool :=
  c = ' ' || c = '\t' || c = '\n' || c = ';' || c = '&' || c = '|' || c = '<' || c = '>' ||
    c = '(' || c = ')'

/-- Whether a character ends the word. -/
def isEnd (c : Char) : Mode → Bool
  | bare => isMeta c
  | double => c = '\x22'
  | braced _ => c = '\x7d'
  | arithmetic depth => c = ')' && depth = 0
  | document => false

/-- The mode after a plain character. -/
def after (c : Char) : Mode → Mode
  | arithmetic depth =>
    arithmetic (if c = '(' then depth + 1 else if c = ')' then depth - 1 else depth)
  | mode => mode

/-- What is missing if the input ends before the word; some words end with the input. -/
def missing? : Mode → Option Octets
  | bare | document => none
  | double => some "Unterminated quoted string".toList
  | braced _ => some "Missing '\x7d'".toList
  | arithmetic _ => some "Missing '))'".toList

/-- Whether a double quote opens a quoted part. -/
def opensQuotes : Mode → Bool
  | document | double => false
  | bare | braced _ | arithmetic _ => true

/-- The characters that a backslash quotes within quotes. -/
def isEscapable (c : Char) : Mode → Bool
  | document => c = '$' || c = '\x60' || c = '\\'
  | braced _ => c = '$' || c = '\x60' || c = '\\' || c = '\x22' || c = '\x7d'
  | _ => c = '$' || c = '\x60' || c = '\\' || c = '\x22'

end Mode

namespace Reader

/-- What is still to be read. -/
def rest : Reader Octets := return (← get).rest

/-- Goes on with other octets. -/
def goTo (rest : Octets) : Reader Unit := modify fun input ↦ { input with rest }

/-- Leaves out some octets. -/
def skip (count : Nat) : Reader Unit :=
  modify fun input ↦ { input with rest := input.rest.drop count }

/-- The end of the input where more is needed. -/
def endOfInput : Fault := .unfinished "end of file unexpected".toList

/-- What a backslash and the octets after it stand for. -/
def escaped (mode : Mode) : Reader Word := do
  match ← rest with
  | [] =>
    if (← get).final then return [.text ['\\'] true]
    else throw endOfInput
  | '\n' :: cs =>
    goTo cs
    return []
  | c :: cs =>
    goTo cs
    if mode.quoted && !mode.isEscapable c then return [.text ['\\', c] true]
    else return [.text [c] true]

/-- The text up to the backquote that ends it, and what follows. A backslash is left out before the
characters that it quotes. -/
def backquotedText (quoted : Bool) : Octets → Option (Octets × Octets)
  | [] => none
  | '\x60' :: cs => some ([], cs)
  | '\\' :: c :: cs =>
    (backquotedText quoted cs).map fun (inside, after) ↦
      if c = '$' || c = '\x60' || c = '\\' || (quoted && c = '\x22') then (c :: inside, after)
      else ('\\' :: c :: inside, after)
  | c :: cs => (backquotedText quoted cs).map fun (inside, after) ↦ (c :: inside, after)

/-- A command substitution between backquotes; the first one has been read. -/
def backquoted (nested : Reader Command) (quoted : Bool) : Reader Word := do
  match backquotedText quoted (← rest) with
  | none => throw (.unfinished "EOF in backquote substitution".toList)
  | some (inside, after) =>
    let (command, input) ← nested.run ⟨inside, true⟩
    if input.rest.isEmpty then
      goTo after
      return [.output command quoted]
    else throw (.unexpected "\")\" unexpected".toList)

/-- Whether a character is the name of a special parameter. -/
def isSpecial (c : Char) : Bool :=
  c = '@' || c = '*' || c = '#' || c = '?' || c = '-' || c = '$' || c = '!'

/-- The name of a parameter at the start of some octets within braces, and what follows it. -/
def parameterName? : Octets → Option (Octets × Octets)
  | [] => none
  | c :: cs =>
    if c.isDigit then some ((c :: cs).takeWhile Char.isDigit, (c :: cs).dropWhile Char.isDigit)
    else if Octets.isNameChar c then
      some ((c :: cs).takeWhile Octets.isNameChar, (c :: cs).dropWhile Octets.isNameChar)
    else if isSpecial c then some ([c], cs)
    else none

/-- The fault of a substitution that is not one. -/
def badSubstitution : Fault := .unexpected "Bad substitution".toList

/-- What is taken of a parameter, up to the closing brace. -/
def use (again : Mode → Reader Word) (quoted : Bool) : Reader Use := do
  let word (make : Word → Use) (quoted : Bool) (length : Nat) : Reader Use := do
    skip length
    return make (← again (.braced quoted))
  match ← rest with
  | '\x7d' :: _ => return .value
  | ':' :: '-' :: _ => word (.otherwise true) quoted 2
  | ':' :: '=' :: _ => word (.assigned true) quoted 2
  | ':' :: '?' :: _ => word (.demanded true) quoted 2
  | ':' :: '+' :: _ => word (.instead true) quoted 2
  | '-' :: _ => word (.otherwise false) quoted 1
  | '=' :: _ => word (.assigned false) quoted 1
  | '?' :: _ => word (.demanded false) quoted 1
  | '+' :: _ => word (.instead false) quoted 1
  | '%' :: '%' :: _ => word (.without true true) false 2
  | '%' :: _ => word (.without true false) false 1
  | '#' :: '#' :: _ => word (.without false true) false 2
  | '#' :: _ => word (.without false false) false 1
  | [] => throw endOfInput
  | _ => throw badSubstitution

/-- A parameter between braces; the first brace has been read. -/
def bracedParameter (again : Mode → Reader Word) (quoted : Bool) : Reader Part := do
  let octets ← rest
  let length? : Option (Octets × Octets) :=
    match octets with
    | '#' :: cs => (parameterName? cs).filter fun (_, after) ↦ after.head? = some '\x7d'
    | _ => none
  match length? with
  | some (name, after) =>
    goTo (after.drop 1)
    return .parameter name .length quoted
  | none =>
    match parameterName? octets with
    | none => if octets.isEmpty then throw endOfInput else throw badSubstitution
    | some (name, after) =>
      goTo after
      let use ← use again quoted
      skip 1
      return .parameter name use quoted

/-- A command substitution; the dollar has been read. -/
def commandOutput (nested : Reader Command) (quoted : Bool) : Reader Word := do
  skip 1
  let command ← nested
  match ← rest with
  | ')' :: cs =>
    goTo cs
    return [.output command quoted]
  | [] => throw endOfInput
  | _ => throw (.unexpected "word unexpected (expecting \")\")".toList)

/-- What a dollar and the octets after it stand for; the dollar has been read. -/
def dollar (nested : Reader Command) (again : Mode → Reader Word) (quoted : Bool) :
    Reader Word := do
  let octets ← rest
  match octets with
  | '\x7b' :: cs =>
    goTo cs
    return [← bracedParameter again quoted]
  | '(' :: '(' :: cs =>
    goTo cs
    let expression ← again (.arithmetic 0)
    match ← rest with
    | ')' :: ')' :: after =>
      goTo after
      return [.number expression quoted]
    | _ =>
      goTo octets
      commandOutput nested quoted
  | '(' :: _ => commandOutput nested quoted
  | c :: cs =>
    if c.isDigit || isSpecial c then
      goTo cs
      return [.parameter [c] .value quoted]
    else if Octets.isNameChar c then
      goTo (octets.dropWhile Octets.isNameChar)
      return [.parameter (octets.takeWhile Octets.isNameChar) .value quoted]
    else return [.text ['$'] quoted]
  | [] => return [.text ['$'] quoted]

/-- Whether a part stands for all positional parameters, which may be none at all. -/
def isAllPositional : Part → Bool
  | .parameter ['@'] .. => true
  | _ => false

/-- What one character, which has been read, and the octets after it stand for. -/
def piece (nested : Reader Command) (again : Mode → Reader Word) (mode : Mode) (c : Char) :
    Reader Word := do
  if c = '\\' then escaped mode
  else if c = '\x27' && !mode.quoted then
    match Text.splitOnce? (· = '\x27') (← rest) with
    | none => throw (.unfinished "Unterminated quoted string".toList)
    | some (inside, after) =>
      goTo after
      return [.text inside true]
  else if c = '\x22' && mode.opensQuotes then
    let inside ← again .double
    skip 1
    return if inside.any isAllPositional then inside else .text [] true :: inside
  else if c = '$' then dollar nested again mode.quoted
  else if c = '\x60' then backquoted nested mode.quoted
  else return [.text [c] mode.quoted]

/-- The parts of a word up to the character that ends it. Commands within it are read by `nested`.
-/
def parts (nested : Reader Command) : Nat → Mode → Reader Word
  | 0, _ => throw endOfInput
  | bound + 1, mode => do
    match ← rest with
    | [] =>
      match mode.missing? with
      | none => return []
      | some what => throw (.unfinished what)
    | c :: cs =>
      if mode.isEnd c then return []
      else
        goTo cs
        let first ← piece nested (parts nested bound) mode c
        let others ← parts nested bound (mode.after c)
        return first.foldr Word.cons others

/-- The parts of a word in a mode. -/
def wordIn (nested : Reader Command) (mode : Mode) : Reader Word := do
  parts nested ((← rest).length + 2) mode

/-- A bare word. A tilde at its start that a slash or the end of the word follows stands for the
home directory. -/
def word (nested : Reader Command) : Reader Word := do
  match ← rest with
  | '~' :: cs =>
    goTo cs
    let others ← wordIn nested .bare
    if cs.head?.all fun c ↦ c = '/' || Mode.isMeta c then return .home :: others
    else return Word.cons (.text ['~'] false) others
  | _ => wordIn nested .bare

end Reader

end Weave.Shell
