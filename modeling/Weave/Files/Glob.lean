import Weave.Text.Octets
import Weave.Text.Pattern

/-!
# Globs

A glob matches paths. An asterisk stands for any octets, a question mark for one, brackets for one
of a set, braces for one of several globs, and two asterisks between slashes for any directories. A
backslash quotes the character after it. Paths are matched octet by octet.

## Main definitions

* `Weave.Glob.Failure`: why a text is not a glob.
* `Weave.Glob.parse`: the patterns of a glob, of which one has to match.
* `Weave.Glob.isMatch`.
-/

namespace Weave.Glob

/-- Why a text is not a glob. -/
inductive Failure where
  | unclosedClass
  | invalidRange (low high : Char)
  | unopenedAlternates
  | unclosedAlternates
  | danglingEscape
  deriving Repr, DecidableEq

/-- The wording of a failure. -/
def Failure.message : Failure → Text
  | unclosedClass => "unclosed character class; missing ']'".toList
  | invalidRange low high =>
    "invalid range; '".toList ++ low :: "' > '".toList ++ high :: ['\x27']
  | unopenedAlternates =>
    "unopened alternate group; missing '\x7b' (maybe escape '\x7d' with '[\x7d]'?)".toList
  | unclosedAlternates =>
    "unclosed alternate group; missing '\x7d' (maybe escape '\x7b' with '[\x7b]'?)".toList
  | danglingEscape => "dangling '\\'".toList

/-- A part of a glob. -/
inductive Token where
  | plain (elements : Pattern)
  /-- Any directories at the start. -/
  | directoriesBefore
  /-- Anything in a directory. -/
  | directoriesAfter
  /-- Any directories between others. -/
  | directoriesBetween
  /-- One of several globs. -/
  | choice (branches : List (List Token))

/-- The branches of a brace group that is being read, the latest first, and the tokens of the branch
that is open, the latest first. -/
structure Frame where
  branches : List (List Token) := []
  tokens : List Token := []

/-- The frame with a token more. -/
def Frame.push (token : Token) (frame : Frame) : Frame :=
  { frame with tokens := token :: frame.tokens }

/-- The branches of a frame in order. -/
def Frame.allBranches (frame : Frame) : List (List Token) :=
  (frame.tokens.reverse :: frame.branches).reverse

/-! ### Classes -/

/-- The ranges of octets that a range of characters comes to. -/
def octetRanges (low high : Char) : List (Char × Char) :=
  let lows := Octets.ofText [low]
  let highs := Octets.ofText [high]
  if low = high then lows.map fun c ↦ (c, c)
  else
    match lows.getLast?, highs with
    | some last, first :: rest =>
      (lows.dropLast.map fun c ↦ (c, c)) ++ (last, first) :: rest.map fun c ↦ (c, c)
    | _, _ => []

/-- The ranges of a class up to the bracket that closes it, the latest first, and what follows. -/
def classRanges (first inRange : Bool) (ranges : List (Char × Char)) :
    Text → Except Failure (List (Char × Char) × Text)
  | [] => .error .unclosedClass
  | c :: cs =>
    if c = ']' && !first then .ok (if inRange then ('-', '-') :: ranges else ranges, cs)
    else if c = '-' && !first && !inRange then classRanges false true ranges cs
    else
      match inRange, ranges with
      | true, (low, _) :: before =>
        if c.toNat < low.toNat then .error (.invalidRange low c)
        else classRanges false false ((low, c) :: before) cs
      | _, _ => classRanges false false ((c, c) :: ranges) cs

/-- A class after its opening bracket, and what follows. -/
def parseClass (cs : Text) : Except Failure (Token × Text) := do
  let negated := cs.head? = some '!' || cs.head? = some '^'
  let (ranges, rest) ← classRanges true false [] (if negated then cs.drop 1 else cs)
  let octets := ranges.flatMap fun (low, high) ↦ octetRanges low high
  return (.plain [.one ⟨negated, octets⟩], rest)

/-! ### Asterisks -/

/-- The class of the octets that a wildcard stands for. -/
def wild (separate : Bool) : CharClass := if separate then .allBut '/' else .any

/-- Two asterisks: the tokens of the open branch after them, the text after them, and the last
character that has been read. `before` is the character before them, `inner` whether they stand
within braces. -/
def doubleStar (separate inner : Bool) (before : Option Char) (tokens : List Token) (cs : Text) :
    List Token × Text × Char :=
  let many : Token := .plain [.many (wild separate)]
  match tokens with
  | [] =>
    match cs with
    | [] => ([.directoriesBefore], [], '*')
    | '/' :: rest => ([.directoriesBefore], rest, '/')
    | cs => ([many, many], cs, '*')
  | last :: earlier =>
    let replaced (token : Token) : List Token :=
      match last with
      | .directoriesBefore => .directoriesBefore :: earlier
      | .directoriesAfter => .directoriesAfter :: earlier
      | _ => token :: earlier
    let starts := before = some '/' || (inner && (before = some ',' || before = some '\x7b'))
    if !starts then (many :: many :: tokens, cs, '*')
    else
      match cs with
      | [] => (replaced .directoriesAfter, [], '*')
      | '/' :: rest => (replaced .directoriesBetween, rest, '/')
      | c :: rest =>
        if inner && (c = ',' || c = '\x7d') then (replaced .directoriesAfter, c :: rest, '*')
        else (many :: many :: tokens, c :: rest, '*')

/-! ### Globs -/

/-- Reads a glob; `frame` and `outer` are the groups that are open, and `before` is the character
that has been read last. -/
def parseFrom (separate : Bool) : Nat → Option Char → Text → Frame → List Frame →
    Except Failure (List Token)
  | _, _, [], frame, [] => .ok frame.tokens.reverse
  | _, _, [], _, _ :: _ => .error .unclosedAlternates
  | 0, _, _ :: _, frame, _ => .ok frame.tokens.reverse
  | bound + 1, before, c :: cs, frame, outer => do
    let goOn := parseFrom separate bound
    match c, cs with
    | '?', _ => goOn c cs (frame.push (.plain [.one (wild separate)])) outer
    | '*', '*' :: rest =>
      let (tokens, rest, last) := doubleStar separate (!outer.isEmpty) before frame.tokens rest
      goOn last rest { frame with tokens } outer
    | '*', _ => goOn c cs (frame.push (.plain [.many (wild separate)])) outer
    | '[', _ =>
      let (token, rest) ← parseClass cs
      goOn ']' rest (frame.push token) outer
    | '\x7b', _ => goOn c cs {} (frame :: outer)
    | '\x7d', _ =>
      match outer with
      | [] => throw .unopenedAlternates
      | parent :: outer => goOn c cs (parent.push (.choice frame.allBranches)) outer
    | '\\', [] => throw .danglingEscape
    | '\\', d :: rest => goOn d rest (frame.push (literal d)) outer
    | _, _ =>
      if c = ',' && !outer.isEmpty then
        goOn c cs { branches := frame.tokens.reverse :: frame.branches } outer
      else goOn c cs (frame.push (literal c)) outer
where
  /-- The token that stands for a character. -/
  literal (c : Char) : Token := .plain ((Octets.ofText [c]).map Pattern.Element.character)

mutual

/-- Whether a token stands for nothing. -/
def isNothing : Token → Bool
  | .plain elements => elements.isEmpty
  | .choice branches => allNothing branches
  | _ => false

/-- Whether every branch stands for nothing. -/
def allNothing : List (List Token) → Bool
  | [] => true
  | branch :: rest => allTokensNothing branch && allNothing rest

/-- Whether every token stands for nothing. -/
def allTokensNothing : List Token → Bool
  | [] => true
  | token :: rest => isNothing token && allTokensNothing rest

end

/-- The element that stands for a slash. -/
def slash : Pattern.Element := .character '/'

mutual

/-- The patterns that a token stands for. Branches that stand for nothing are left out of a choice.
-/
def tokenPatterns : Token → List Pattern
  | .plain elements => [elements]
  | .directoriesBefore => [[], [slash], [.many .any, slash]]
  | .directoriesAfter => [[slash, .many .any]]
  | .directoriesBetween => [[slash], [slash, .many .any, slash]]
  | .choice branches =>
    match branchPatterns branches with
    | [] => [[]]
    | patterns => patterns

/-- The patterns that some branches stand for. -/
def branchPatterns : List (List Token) → List Pattern
  | [] => []
  | branch :: rest =>
    if allTokensNothing branch then branchPatterns rest
    else tokensPatterns branch ++ branchPatterns rest

/-- The patterns that some tokens stand for one after the other. -/
def tokensPatterns : List Token → List Pattern
  | [] => [[]]
  | token :: rest =>
    (tokenPatterns token).flatMap fun first ↦ (tokensPatterns rest).map (first ++ ·)

end

/-- The patterns of a glob. If `separate` is set, wildcards do not stand for slashes. -/
def parse (separate : Bool) (text : Text) : Except Failure (List Pattern) := do
  match ← parseFrom separate text.length none text {} [] with
  | [.directoriesBefore] => return [[.many .any]]
  | tokens => return tokensPatterns tokens

/-- Whether one of some patterns matches a path. -/
def isMatch (patterns : List Pattern) (path : Text) : Bool :=
  patterns.any fun pattern ↦ pattern.isMatch (Octets.ofText path)

end Weave.Glob
