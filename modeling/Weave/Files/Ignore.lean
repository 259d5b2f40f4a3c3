import Weave.Files.Glob
import Weave.Files.Tree
import Weave.Text.Line

/-!
# Ignored files

The rules of an ignore file hold for the directory that it is in and for those below. Of the rules
that match, the last one of the nearest file decides: it ignores a path or keeps it.

## Main definitions

* `Weave.Ignore.Rule`, `Weave.Ignore.parse`: the rules of a file.
* `Weave.Ignore.verdict?`: what the rules of a file say of a path.
* `Weave.Ignore.Scope`, `Weave.Ignore.isSkipped`: whether an entry of a directory is left out of a
  walk.
-/

namespace Weave.Ignore

/-- A rule of an ignore file. -/
structure Rule where
  patterns : List Pattern
  /-- Whether what matches is kept. -/
  keeps : Bool
  onlyDirectories : Bool
  deriving Repr

/-! ### Reading -/

/-- The glob that a rule matches paths with: a glob without a slash matches at any depth, and one
for all that is in a directory does not match the directory. -/
def pathGlob (anchored : Bool) (glob : Text) : Text :=
  let anywhere := !anchored && !glob.contains '/' && glob ≠ ['*', '*']
  let glob := if anywhere then "**/".toList ++ glob else glob
  if Text.startsWith ['*', '*', '/'] glob.reverse then glob ++ ['/', '*'] else glob

/-- The line of a rule without the blanks at its end, unless they are quoted. -/
def trimmedLine (line : Text) : Text :=
  if Text.startsWith [' ', '\\'] line.reverse then line else Text.trimEnd line

/-- A glob without the slash at its end, and whether it had one. A backslash that quotes the slash
goes with it. -/
def splitSlash (glob : Text) : Text × Bool :=
  match glob.reverse with
  | '/' :: '\\' :: rest => (rest.reverse, true)
  | '/' :: rest => (rest.reverse, true)
  | _ => (glob, false)

/-- The rule of a line, if it holds one. -/
def parseLine (line : Text) : Option Rule :=
  let line := trimmedLine line
  let rule (keeps anchored : Bool) (glob : Text) : Option Rule :=
    let (glob, onlyDirectories) := splitSlash glob
    match Glob.parse true (pathGlob anchored glob) with
    | .ok patterns => some ⟨patterns, keeps, onlyDirectories⟩
    | .error _ => none
  match line with
  | [] => none
  | '#' :: _ => none
  | '\\' :: '!' :: rest => rule false false ('!' :: rest)
  | '\\' :: '#' :: rest => rule false false ('#' :: rest)
  | '!' :: '/' :: rest => rule true true rest
  | '!' :: rest => rule true false rest
  | '/' :: rest => rule false true rest
  | line => rule false false line

/-- The rules of a file. -/
def parse (text : Text) : List Rule := (Text.lines text).filterMap parseLine

/-- The rules of the file at a place, if there is one. -/
def rulesAt (tree : FileTree) (place : List Text) : List Rule :=
  match tree.readText [] (Path.ofNames place) with
  | .ok text => parse text
  | .error _ => []

/-! ### Deciding -/

/-- What the rules of a file say of a path below its directory: whether it is kept or ignored. -/
def verdict? (rules : List Rule) (path : Text) (isDirectory : Bool) : Option Bool :=
  (rules.reverse.find? fun rule ↦
    (!rule.onlyDirectories || isDirectory) && Glob.isMatch rule.patterns path).map Rule.keeps

/-- The rules of a directory. -/
structure Level where
  place : List Text
  /-- The rules that hold everywhere. -/
  general : List Rule
  /-- The rules that hold in a repository. -/
  tracked : List Rule
  /-- The rules of the repository itself. -/
  excluded : List Rule
  /-- Whether the directory is the top of a repository. -/
  isTop : Bool

/-- The rules of the directory at a place. -/
def Level.at (tree : FileTree) (place : List Text) : Level :=
  let file (names : List String) := rulesAt tree (place ++ names.map String.toList)
  let isTop := (tree.placeOf? [] (Path.ofNames (place ++ [".git".toList]))).isSome
  { place
    general := file [".ignore"]
    tracked := file [".gitignore"]
    excluded := if isTop then file [".git", "info", "exclude"] else []
    isTop }

/-- The rules of a directory and of those above it, the nearest first. -/
abbrev Scope := List Level

/-- The scope of the directory at a place. -/
def Scope.at (tree : FileTree) (place : List Text) : Scope :=
  (List.range (place.length + 1)).reverse.map fun n ↦ Level.at tree (place.take n)

/-- What the levels of a scope say of a path, each through some of its rules; the nearest one that
says anything decides. -/
def decide? (rules : Level → List Rule) (place : List Text) (isDirectory : Bool) (scope : Scope) :
    Option Bool :=
  scope.findSome? fun level ↦
    verdict? (rules level) (Text.joinWith ['/'] (place.drop level.place.length)) isDirectory

/-- The levels up to the top of the repository; none outside of one. -/
def withinRepository (scope : Scope) : Scope :=
  if scope.any Level.isTop then
    scope.takeWhile (!·.isTop) ++ (scope.dropWhile (!·.isTop)).take 1
  else []

/-- Whether an entry of a directory is left out of a walk: it is ignored, or it is hidden and no
rule keeps it. -/
def isSkipped (scope : Scope) (place : List Text) (isDirectory : Bool) : Bool :=
  let repository := withinRepository scope
  let verdict := (decide? Level.general place isDirectory scope).or
    ((decide? Level.tracked place isDirectory repository).or
      (decide? Level.excluded place isDirectory repository))
  match verdict with
  | some keeps => !keeps
  | none => (place.getLast?.getD []).head? = some '.'

end Weave.Ignore
