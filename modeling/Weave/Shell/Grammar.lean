import Weave.Shell.Reader
import Weave.Text.Line

/-!
# Reading commands

Commands are read by recursive descent, one complete command at a time: a list of commands up to the
end of a line. The body of a here-document is taken out of the input as soon as its delimiter has
been read, from the lines after the one that is being read.

## Main definitions

* `Weave.Shell.Grammar.command`: one command.
* `Weave.Shell.Grammar.list`: commands up to a closing word.
* `Weave.Shell.Grammar.complete`: the next complete command of the input.
-/

namespace Weave.Shell.Grammar

open Reader

/-! ### Blanks and reserved words -/

/-- The octets from the next token of the line on. -/
def afterBlanks : Octets → Octets
  | ' ' :: cs => afterBlanks cs
  | '\t' :: cs => afterBlanks cs
  | '\\' :: '\n' :: cs => afterBlanks cs
  | '#' :: cs => cs.dropWhile (· ≠ '\n')
  | cs => cs

/-- The octets from the next token on, after any number of line breaks. -/
def afterBreaks (inComment : Bool) : Octets → Octets
  | [] => []
  | '\n' :: cs => afterBreaks false cs
  | '\\' :: '\n' :: cs => afterBreaks false cs
  | c :: cs =>
    if inComment || c = '#' then afterBreaks true cs
    else if c = ' ' || c = '\t' then afterBreaks false cs
    else c :: cs

/-- Goes to the next token of the line. -/
def skipBlanks : Reader Unit := modify fun input ↦ { input with rest := afterBlanks input.rest }

/-- Goes to the next token on this line or on a later one. -/
def skipBreaks : Reader Unit :=
  modify fun input ↦ { input with rest := afterBreaks false input.rest }

/-- The words that have a meaning where a command can start. -/
def reservedWords : List Octets :=
  ["if", "then", "else", "elif", "fi", "do", "done", "case", "esac", "while", "until", "for",
    "\x7b", "\x7d", "!", "in"].map String.toList

/-- The words that end a list of commands. -/
def closingWords : List Octets :=
  ["then", "else", "elif", "fi", "do", "done", "esac", "\x7d"].map String.toList

/-- The plain word at the start of some octets. -/
def plainWord (octets : Octets) : Octets := octets.takeWhile fun c ↦ !Mode.isMeta c

/-- The reserved word at the start of some octets. -/
def reserved? (octets : Octets) : Option Octets :=
  let word := plainWord octets
  if word ∈ reservedWords then some word else none

/-- The operators, those that start others after them. -/
def operators : List Octets :=
  ["&&", "||", ";;", "<<-", "<<", ">>", "<&", ">&", "<>", ">|", "&", "|", ";", "<", ">", "(",
    ")"].map
    String.toList

/-- The fault of the token at hand. -/
def unexpectedToken : Reader Fault := do
  match ← rest with
  | [] => return endOfInput
  | '\n' :: _ => return .unexpected "newline unexpected".toList
  | octets =>
    match operators.find? fun operator ↦ Text.startsWith operator octets with
    | some operator => return .unexpected ('\x22' :: operator ++ "\" unexpected".toList)
    | none =>
      match reserved? octets with
      | some word => return .unexpected ('\x22' :: word ++ "\" unexpected".toList)
      | none => return .unexpected "word unexpected".toList

/-- Reads a word that has to come next. -/
def expectWord (word : String) : Reader Unit := do
  skipBreaks
  if plainWord (← rest) = word.toList then skip word.length else throw (← unexpectedToken)

/-- Reads an operator that has to come next. -/
def expectOperator (operator : String) : Reader Unit := do
  skipBlanks
  if Text.startsWith operator.toList (← rest) then skip operator.length
  else throw (← unexpectedToken)

/-- Reads an operator if it comes next. -/
def acceptOperator (operator : String) : Reader Bool := do
  skipBlanks
  if Text.startsWith operator.toList (← rest) then
    skip operator.length
    return true
  else return false

/-! ### Redirections -/

/-- The octets up to the line feed that ends the line, quotes taken into account, and what follows
the line feed. -/
def splitLine (quote : Option Char) : Octets → Octets × Option Octets
  | [] => ([], none)
  | '\n' :: cs =>
    if quote.isNone then ([], some cs)
    else
      let (line, after) := splitLine quote cs
      ('\n' :: line, after)
  | '\\' :: c :: cs =>
    if quote = some '\x27' then
      let (line, after) := splitLine (if c = '\x27' then none else quote) cs
      ('\\' :: c :: line, after)
    else
      let (line, after) := splitLine quote cs
      ('\\' :: c :: line, after)
  | c :: cs =>
    let opened :=
      match quote with
      | none => if c = '\x22' || c = '\x27' then some c else none
      | some q => if c = q then none else quote
    let (line, after) := splitLine opened cs
    (c :: line, after)

/-- The lines of a here-document and the lines after its delimiter, if the delimiter is there. -/
def documentLines (tabs : Bool) (delimiter : Octets) :
    List Octets → List Octets × Option (List Octets)
  | [] => ([], none)
  | line :: rest =>
    let line := if tabs then line.dropWhile (· = '\t') else line
    if line = delimiter || line = delimiter ++ ['\n'] then ([], some rest)
    else
      let (body, after) := documentLines tabs delimiter rest
      (line :: body, after)

/-- Takes the body of a here-document out of the lines after this one. One that is not delimited
ends with the input. -/
def takeDocument (tabs : Bool) (delimiter : Octets) : Reader Octets := do
  let (line, after) := splitLine none (← rest)
  match documentLines tabs delimiter (Text.brokenLines (after.getD [])) with
  | (body, some after) =>
    goTo (line ++ '\n' :: after.flatten)
    return body.flatten
  | (body, none) =>
    if (← get).final then
      goTo line
      return body.flatten
    else throw endOfInput

/-- The octets of a word that is not expanded, and whether a part of it is quoted. -/
def delimiterOf : Word → Octets × Bool
  | [] => ([], false)
  | .text octets quoted :: rest =>
    let (more, anyQuoted) := delimiterOf rest
    (octets ++ more, quoted || anyQuoted)
  | .parameter name _ _ :: rest =>
    let (more, anyQuoted) := delimiterOf rest
    ('$' :: name ++ more, anyQuoted)
  | _ :: rest => delimiterOf rest

/-- A word that has to come next. -/
def expectAnyWord (nested : Reader Command) : Reader Word := do
  skipBlanks
  match ← word nested with
  | [] => throw (← unexpectedToken)
  | parts => return parts

/-- A here-document; its operator has been read. -/
def hereDocument (nested : Reader Command) (stream : Nat) (tabs : Bool) : Reader Redirection := do
  let (delimiter, quoted) := delimiterOf (← expectAnyWord nested)
  let body ← takeDocument tabs delimiter
  if quoted then return .document stream [.text body true]
  else
    let after ← get
    set (⟨body, true⟩ : Input)
    let parts ← wordIn nested .document
    set after
    return .document stream parts

/-- A redirection, if one comes next. -/
def redirection? (nested : Reader Command) : Reader (Option Redirection) := do
  skipBlanks
  let octets ← rest
  let digits := octets.takeWhile Char.isDigit
  let operator := octets.drop digits.length
  let stream (default : Nat) := (Octets.toNat? digits).getD default
  let file (length default : Nat) (opening : Opening) : Reader (Option Redirection) := do
    goTo (operator.drop length)
    return some (.file (stream default) opening (← expectAnyWord nested))
  let copy (default : Nat) : Reader (Option Redirection) := do
    goTo (operator.drop 2)
    return some (.copy (stream default) (← expectAnyWord nested))
  let document (length : Nat) (tabs : Bool) : Reader (Option Redirection) := do
    goTo (operator.drop length)
    return some (← hereDocument nested (stream 0) tabs)
  match operator with
  | '<' :: '<' :: '-' :: _ => document 3 true
  | '<' :: '<' :: _ => document 2 false
  | '<' :: '&' :: _ => copy 0
  | '<' :: '>' :: _ => file 2 0 .update
  | '<' :: _ => file 1 0 .read
  | '>' :: '>' :: _ => file 2 1 .append
  | '>' :: '&' :: _ => copy 1
  | '>' :: '|' :: _ => file 2 1 .write
  | '>' :: _ => file 1 1 .write
  | _ => return none

/-- The redirections that come next. -/
def redirections (nested : Reader Command) : Nat → Reader (List Redirection)
  | 0 => return []
  | bound + 1 => do
    match ← redirection? nested with
    | none => return []
    | some first => return first :: (← redirections nested bound)

/-! ### Simple commands -/

/-- A word that sets a variable: the name and the value. -/
def assignment? : Word → Option (Octets × Word)
  | .text octets false :: rest =>
    match Text.splitOnce? (· = '=') octets with
    | some (name, value) =>
      if Octets.isName name then
        some (name, if value.isEmpty then rest else .text value false :: rest)
      else none
    | none => none
  | _ => none

/-- The assignments, words and redirections of a simple command, in order. -/
def simpleParts (nested : Reader Command) (started : Bool) :
    Nat → Reader (List (Octets × Word) × List Word × List Redirection)
  | 0 => throw endOfInput
  | bound + 1 => do
    match ← redirection? nested with
    | some first =>
      let (assignments, words, others) ← simpleParts nested started bound
      return (assignments, words, first :: others)
    | none =>
      match ← word nested with
      | [] => return ([], [], [])
      | parts =>
        match if started then none else assignment? parts with
        | some assignment =>
          let (assignments, words, others) ← simpleParts nested false bound
          return (assignment :: assignments, words, others)
        | none =>
          let (assignments, words, others) ← simpleParts nested true bound
          return (assignments, parts :: words, others)

/-- The rest of a word list up to the end of the line or a semicolon. -/
def wordList (nested : Reader Command) : Nat → Reader (List Word)
  | 0 => throw endOfInput
  | bound + 1 => do
    skipBlanks
    match ← word nested with
    | [] => return []
    | parts => return parts :: (← wordList nested bound)

/-! ### Compound commands -/

/-- A command followed by another one. -/
def andThen : Command → Command → Command
  | .nothing, second => second
  | first, .nothing => first
  | first, second => .sequence first second

/-- The rest of a branch after its first word. -/
def branch (nested : Reader Command) : Nat → Reader Command
  | 0 => throw endOfInput
  | bound + 1 => do
    let condition ← nested
    expectWord "then"
    let body ← nested
    skipBreaks
    let closing := plainWord (← rest)
    if closing = "elif".toList then
      skip 4
      return .branch condition body (← branch nested bound)
    else if closing = "else".toList then
      skip 4
      let otherwise ← nested
      expectWord "fi"
      return .branch condition body otherwise
    else
      expectWord "fi"
      return .branch condition body .nothing

/-- A body between `do` and `done`. -/
def loopBody (nested : Reader Command) : Reader Command := do
  expectWord "do"
  let body ← nested
  expectWord "done"
  return body

/-- The rest of a loop over items after its first word. -/
def itemLoop (nested : Reader Command) : Reader Command := do
  skipBlanks
  let name := plainWord (← rest)
  if !Octets.isName name then throw (.unexpected "Bad for loop variable".toList)
  skip name.length
  skipBlanks
  if (← rest).head? = some ';' then skip 1
  skipBreaks
  if plainWord (← rest) = "in".toList then
    skip 2
    let items ← wordList nested ((← rest).length + 1)
    skipBlanks
    match ← rest with
    | ';' :: cs => goTo cs
    | '\n' :: cs => goTo cs
    | _ => throw (← unexpectedToken)
    return .each name (some items) (← loopBody nested)
  else return .each name none (← loopBody nested)

/-- The patterns of a case up to the parenthesis that ends them. -/
def patterns (nested : Reader Command) : Nat → Reader (List Word)
  | 0 => throw endOfInput
  | bound + 1 => do
    let pattern ← expectAnyWord nested
    if ← acceptOperator "|" then return pattern :: (← patterns nested bound)
    else
      expectOperator ")"
      return [pattern]

/-- The cases of a choice up to the word that ends them. -/
def choices (nested : Reader Command) : Nat → Reader (List (List Word × Command))
  | 0 => throw endOfInput
  | bound + 1 => do
    skipBreaks
    if plainWord (← rest) = "esac".toList then
      skip 4
      return []
    else
      let _ ← acceptOperator "("
      let matching ← patterns nested ((← rest).length + 1)
      let body ← nested
      skipBreaks
      if ← acceptOperator ";;" then return (matching, body) :: (← choices nested bound)
      else
        expectWord "esac"
        return [(matching, body)]

/-- The rest of a choice after its first word. -/
def choice (nested : Reader Command) : Reader Command := do
  let subject ← expectAnyWord nested
  expectWord "in"
  return .choice subject (← choices nested ((← rest).length + 1))

/-- A compound command, if one comes next. -/
def compound? (nested : Reader Command) : Reader (Option Command) := do
  skipBlanks
  let octets ← rest
  if octets.head? = some '(' then
    skip 1
    let body ← nested
    skipBreaks
    expectOperator ")"
    return some (.subshell body)
  else
    match (reserved? octets).map String.ofList with
    | some "if" =>
      skip 2
      return some (← branch nested (octets.length + 1))
    | some "while" =>
      skip 5
      let condition ← nested
      return some (.loop true condition (← loopBody nested))
    | some "until" =>
      skip 5
      let condition ← nested
      return some (.loop false condition (← loopBody nested))
    | some "for" =>
      skip 3
      return some (← itemLoop nested)
    | some "case" =>
      skip 4
      return some (← choice nested)
    | some "\x7b" =>
      skip 1
      let body ← nested
      expectWord "\x7d"
      return some body
    | _ => return none

/-- A compound command with its redirections, if one comes next. -/
def redirectedCompound? (nested : Reader Command) : Reader (Option Command) := do
  match ← compound? nested with
  | none => return none
  | some body =>
    match ← redirections nested ((← rest).length + 1) with
    | [] => return some body
    | changes => return some (.redirected body changes)

/-- The body of a function, if its parentheses come next; they follow the name. -/
def functionBody? (nested : Reader Command) (name : Octets) : Reader (Option Command) := do
  if ← acceptOperator "(" then
    expectOperator ")"
    skipBreaks
    match ← redirectedCompound? nested with
    | some body => return some (.define name body)
    | none => throw (← unexpectedToken)
  else return none

/-- A command without operators. -/
def single (nested : Reader Command) : Reader Command := do
  match ← redirectedCompound? nested with
  | some body => return body
  | none =>
    if ((reserved? (← rest)).filter (· ≠ "in".toList)).isSome then throw (← unexpectedToken)
    let (assignments, words, changes) ← simpleParts nested false ((← rest).length + 2)
    match assignments, words, changes with
    | [], [], [] => throw (← unexpectedToken)
    | [], [name], [] =>
      match ← functionBody? nested ((Word.plain? name).getD []) with
      | some function => return function
      | none => return .simple [] [name] []
    | _, _, _ => return .simple assignments words changes

/-! ### Lists -/

/-- The stages of a pipeline. -/
def stages (one : Reader Command) : Nat → Reader (List Command)
  | 0 => throw endOfInput
  | bound + 1 => do
    let first ← one
    skipBlanks
    match ← rest with
    | '|' :: '|' :: _ => return [first]
    | '|' :: cs =>
      goTo cs
      skipBreaks
      return first :: (← stages one bound)
    | _ => return [first]

/-- A pipeline, which an exclamation mark negates. -/
def pipeline (one : Reader Command) : Reader Command := do
  skipBlanks
  let negated := reserved? (← rest) = some ['!']
  if negated then skip 1
  let body ← stages one ((← rest).length + 1)
  let command :=
    match body with
    | [stage] => stage
    | _ => .pipeline body
  return if negated then .negated command else command

/-- The rest of a list of pipelines in which each runs on the outcome of those before it. -/
def conditional (one : Reader Command) (first : Command) : Nat → Reader Command
  | 0 => throw endOfInput
  | bound + 1 => do
    skipBlanks
    match ← rest with
    | '&' :: '&' :: cs =>
      goTo cs
      skipBreaks
      conditional one (.both first (← pipeline one)) bound
    | '|' :: '|' :: cs =>
      goTo cs
      skipBreaks
      conditional one (.either first (← pipeline one)) bound
    | _ => return first

/-- Whether the input ends a list of commands. -/
def atEnd : Reader Bool := do
  let octets ← rest
  return octets.isEmpty || octets.head? = some ')' || Text.startsWith [';', ';'] octets ||
    plainWord octets ∈ closingWords

/-- The commands up to a closing word, a parenthesis or the end of the input. If `oneLine` is set,
they end with the line. -/
def listOf (one : Reader Command) (oneLine : Bool) : Nat → Reader Command
  | 0 => throw endOfInput
  | bound + 1 => do
    if oneLine then skipBlanks else skipBreaks
    if ← atEnd then return .nothing
    else if oneLine && (← rest).head? = some '\n' then return .nothing
    else
      let first ← conditional one (← pipeline one) ((← rest).length + 1)
      skipBlanks
      match ← rest with
      | ';' :: ';' :: _ => return first
      | ';' :: cs =>
        goTo cs
        return andThen first (← listOf one oneLine bound)
      | '&' :: cs =>
        goTo cs
        return andThen (.background first) (← listOf one oneLine bound)
      | '\n' :: cs =>
        if oneLine then return first
        else
          goTo cs
          return andThen first (← listOf one oneLine bound)
      | _ => return first

/-- The commands up to a closing word, a parenthesis or the end of the input. -/
def list (one : Reader Command) : Reader Command := do listOf one false ((← rest).length + 1)

/-- A command whose parts are nested at most as deep as the bound. -/
def command : Nat → Reader Command
  | 0 => throw endOfInput
  | bound + 1 => single (list (command bound))

/-- The next complete command of the input: the commands up to the end of its line. There is none
where the input ends. -/
def complete : Reader (Option Command) := do
  skipBreaks
  let octets ← rest
  if octets.isEmpty then return none
  else
    let found ← listOf (command (octets.length + 1)) true (octets.length + 1)
    match ← rest with
    | [] => return some found
    | '\n' :: cs =>
      goTo cs
      return some found
    | _ => throw (← unexpectedToken)

end Weave.Shell.Grammar
