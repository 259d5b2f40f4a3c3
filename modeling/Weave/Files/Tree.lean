import Weave.Files.Path
import Weave.Text.Utf8

/-!
# File trees

A file tree holds directories, regular files and symbolic links under the lists of names that lead
to them from the root. Paths are followed through links, and what goes wrong on the way is reported
as the system words it.

## Main definitions

* `Weave.FileTree`, `Weave.FileTree.Entry`, `Weave.FileFault`.
* `Weave.FileTree.follow`: where a path leads.
* `Weave.FileTree.read`, `Weave.FileTree.write`, `Weave.FileTree.isDirectory`,
  `Weave.FileTree.canonical?`.

## Main results

* `Weave.FileTree.get?_put_self`, `Weave.FileTree.get?_put_of_ne`: what is stored where.
-/

namespace Weave

/-- What can go wrong with a path. -/
inductive FileFault where
  | notFound
  | denied
  | notDirectory
  | isDirectory
  | nameTooLong
  | tooManyLinks
  | notExecutable
  | notText
  | nulInPath
  | nulInArgument
  | alreadyExists
  | notEmpty
  deriving Repr, DecidableEq

/-- What a fault is called. -/
def FileFault.label : FileFault → Text
  | notFound => "No such file or directory".toList
  | denied => "Permission denied".toList
  | notDirectory => "Not a directory".toList
  | isDirectory => "Is a directory".toList
  | nameTooLong => "File name too long".toList
  | tooManyLinks => "Too many levels of symbolic links".toList
  | notExecutable => "Exec format error".toList
  | notText => "stream did not contain valid UTF-8".toList
  | nulInPath => "file name contained an unexpected NUL byte".toList
  | nulInArgument => "nul byte found in provided data".toList
  | alreadyExists => "File exists".toList
  | notEmpty => "Directory not empty".toList

/-- The number of a fault, if it is one of the system. -/
def FileFault.number? : FileFault → Option Nat
  | notFound => some 2
  | notExecutable => some 8
  | denied => some 13
  | alreadyExists => some 17
  | notDirectory => some 20
  | isDirectory => some 21
  | nameTooLong => some 36
  | notEmpty => some 39
  | tooManyLinks => some 40
  | notText | nulInPath | nulInArgument => none

/-- The wording of a fault. -/
def FileFault.message (fault : FileFault) : Text :=
  match fault.number? with
  | none => fault.label
  | some n => fault.label ++ " (os error ".toList ++ Nat.toDigits 10 n ++ [')']

/-- What a place in a file tree holds. -/
inductive FileTree.Entry where
  | directory
  | file (content : Bytes) (executable : Bool)
  | link (target : Text)
  /-- The device that is always empty and forgets what is written to it. -/
  | null
  deriving Repr, DecidableEq

/-- A file tree: what the places below the root hold, each place given by the names that lead to
it. -/
structure FileTree where
  entries : List (List Text × FileTree.Entry) := []

namespace FileTree

/-- What a place holds. The root is a directory. -/
def get? (tree : FileTree) (place : List Text) : Option Entry :=
  if place.isEmpty then some .directory else tree.entries.lookup place

/-- The tree with something put at a place. -/
def put (tree : FileTree) (place : List Text) (entry : Entry) : FileTree :=
  if (tree.entries.lookup place).isSome then
    ⟨tree.entries.map fun (p, e) ↦ (p, if p = place then entry else e)⟩
  else ⟨tree.entries ++ [(place, entry)]⟩

/-- The tree without what a place and everything below it hold. -/
def remove (tree : FileTree) (place : List Text) : FileTree :=
  ⟨tree.entries.filter fun (p, _) ↦ !place.isPrefixOf p⟩

/-- The names in a directory with what they hold. -/
def children (tree : FileTree) (place : List Text) : List (Text × Entry) :=
  tree.entries.filterMap fun (p, e) ↦
    match p.getLast? with
    | some name => if p.dropLast = place then some (name, e) else none
    | none => none

private theorem lookup_map_replace {entries : List (List Text × Entry)} {place other : List Text}
    {entry : Entry} :
    (entries.map fun (p, e) ↦ (p, if p = place then entry else e)).lookup other =
      if other = place then (entries.lookup other).map fun _ ↦ entry else entries.lookup other := by
  induction entries with
  | nil => simp
  | cons head rest ih =>
    obtain ⟨p, e⟩ := head
    by_cases ho : other = p
    · subst ho
      by_cases hp : other = place <;> simp [hp]
    · have hb : (other == p) = false := beq_eq_false_iff_ne.mpr ho
      simp only [List.map_cons, List.lookup_cons, hb]
      exact ih

/-- What was put at a place is there. -/
theorem get?_put_self (tree : FileTree) {place : List Text} (entry : Entry) (h : place ≠ []) :
    (tree.put place entry).get? place = some entry := by
  have hne : place.isEmpty = false := by cases place <;> simp_all
  simp only [get?, hne, Bool.false_eq_true, if_false, put]
  cases hold : tree.entries.lookup place with
  | some e => simp [lookup_map_replace, hold]
  | none => simp [List.lookup_append, hold]

/-- What other places hold is unchanged. -/
theorem get?_put_of_ne (tree : FileTree) {place other : List Text} (entry : Entry)
    (h : other ≠ place) : (tree.put place entry).get? other = tree.get? other := by
  simp only [get?, put]
  split
  · rfl
  · split
    · simp [lookup_map_replace, h]
    · simp [List.lookup_append, List.lookup_cons, beq_eq_false_iff_ne.mpr h]

/-- Where names lead from the directory `place`, and what is there: `none` if only the last name is
missing. A link at the end is followed if `throughLast` says so. A link that is followed leads where
`again` says, from a place and the names of its target with those behind it. -/
def followWith (tree : FileTree) (throughLast : Bool)
    (again : List Text → List Text → Except FileFault (List Text × Option Entry))
    (place : List Text) : List Text → Except FileFault (List Text × Option Entry)
  | [] => .ok (place, tree.get? place)
  | name :: rest =>
    match tree.get? place with
    | some .directory =>
      if name = Path.here then followWith tree throughLast again place rest
      else if name = Path.above then followWith tree throughLast again place.dropLast rest
      else if 255 < Utf8.size name then .error .nameTooLong
      else
        match tree.get? (place ++ [name]) with
        | none => if rest.isEmpty then .ok (place ++ [name], none) else .error .notFound
        | some (.link target) =>
          if rest.isEmpty && !throughLast then .ok (place ++ [name], some (.link target))
          else
            again (if Path.isAbsolute target then [] else place) (Path.names target ++ rest)
        | some _ => followWith tree throughLast again (place ++ [name]) rest
    | none => .error .notFound
    | some _ => .error .notDirectory

/-- Where names lead from the directory `place`, with at most `links` links followed. -/
def follow (tree : FileTree) (throughLast : Bool) :
    (links : Nat) → (place : List Text) → List Text → Except FileFault (List Text × Option Entry)
  | 0 => followWith tree throughLast fun _ _ ↦ .error .tooManyLinks
  | links + 1 => followWith tree throughLast (follow tree throughLast links)

/-- Where a path leads from the directory `place`; a link at the end is followed if `throughLast`
says so. -/
def locateWith (throughLast : Bool) (tree : FileTree) (place : List Text) (path : Text) :
    Except FileFault (List Text × Option Entry) :=
  if '\x00' ∈ path then .error .nulInPath
  else if path.isEmpty then .error .notFound
  else if 4095 < Utf8.size path then .error .nameTooLong
  else
    follow tree throughLast 40 (if Path.isAbsolute path then [] else place) (Path.names path)

/-- Where a path leads from the directory `place`. -/
def locate (tree : FileTree) (place : List Text) (path : Text) :
    Except FileFault (List Text × Option Entry) := locateWith true tree place path

/-- The content of the file at a path. -/
def read (tree : FileTree) (place : List Text) (path : Text) : Except FileFault Bytes := do
  match ← tree.locate place path with
  | (_, some (.file content _)) => .ok content
  | (_, some .directory) => .error .isDirectory
  | (_, some .null) => .ok []
  | (_, some (.link _)) => .error .tooManyLinks
  | (_, none) => .error .notFound

/-- The text of the file at a path. -/
def readText (tree : FileTree) (place : List Text) (path : Text) : Except FileFault Text := do
  match Utf8.decode? (← tree.read place path) with
  | some text => .ok text
  | none => .error .notText

/-- The tree with the file at a path holding some content; the file is made if it is missing. -/
def write (tree : FileTree) (place : List Text) (path : Text) (content : Bytes) :
    Except FileFault FileTree := do
  match ← tree.locate place path with
  | (target, some (.file _ executable)) => .ok (tree.put target (.file content executable))
  | (target, none) => .ok (tree.put target (.file content false))
  | (_, some .directory) => .error .isDirectory
  | (_, some .null) => .ok tree
  | (_, some (.link _)) => .error .tooManyLinks

/-- Whether a path leads to a directory. -/
def isDirectory (tree : FileTree) (place : List Text) (path : Text) : Bool :=
  match tree.locate place path with
  | .ok (_, some .directory) => true
  | _ => false

/-- Whether a path leads to a regular file. -/
def isFile (tree : FileTree) (place : List Text) (path : Text) : Bool :=
  match tree.locate place path with
  | .ok (_, some (.file ..)) => true
  | _ => false

/-- The place that a path leads to, if something is there. -/
def placeOf? (tree : FileTree) (place : List Text) (path : Text) : Option (List Text) :=
  match tree.locate place path with
  | .ok (target, some _) => some target
  | _ => none

/-- The path from the root, without links, that leads where a path leads. -/
def canonical? (tree : FileTree) (place : List Text) (path : Text) : Option Text :=
  (tree.placeOf? place path).map Path.ofNames

/-- The tree with a directory at a place and at every place on the way to it that holds nothing. -/
def makeDirectories (tree : FileTree) (place : List Text) : FileTree :=
  (List.range place.length).foldl (fun tree n ↦
    let p := place.take (n + 1)
    if (tree.get? p).isSome then tree else tree.put p .directory) tree

/-- The tree with something put at a place and the directories on the way to it made. -/
def install (tree : FileTree) (place : List Text) (entry : Entry) : FileTree :=
  (tree.makeDirectories place.dropLast).put place entry

end FileTree

end Weave
