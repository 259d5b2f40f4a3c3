import Weave.Files.Ignore

/-!
# Walks

A walk comes to a directory and to what is below it, in the directory only or at any depth. Hidden
and ignored entries are left out, and links are not followed.

## Main definitions

* `Weave.Walk.Found`: something that a walk comes to.
* `Weave.Walk.below`, `Weave.Walk.run`: what a walk comes to.
* `Weave.Walk.sources`: the files with an extension among it, in order.
-/

namespace Weave.Walk

/-- Something that a walk comes to. -/
structure Found where
  /-- The names that lead to it from the directory. -/
  names : List Text
  isFile : Bool
  deriving Repr, DecidableEq

/-- What is found in a directory, seen from the directory above it. -/
def Found.within (name : Text) (found : Found) : Found :=
  { found with names := name :: found.names }

/-- What a walk comes to below the directory at a place. At most `depth` directories are entered one
within the other. -/
def below (tree : FileTree) (scope : Ignore.Scope) (place : List Text) : Nat → List Found
  | 0 => []
  | depth + 1 =>
    (tree.children place).flatMap fun (name, entry) ↦
      let child := place ++ [name]
      match entry with
      | .directory =>
        if Ignore.isSkipped scope child true then []
        else
          ⟨[name], false⟩ ::
            (below tree (Ignore.Level.at tree child :: scope) child depth).map (.within name)
      | .file .. => if Ignore.isSkipped scope child false then [] else [⟨[name], true⟩]
      | _ => if Ignore.isSkipped scope child false then [] else [⟨[name], false⟩]

/-- What a walk comes to from the directory at a place, with that directory. -/
def run (tree : FileTree) (recursive : Bool) (place : List Text) : List Found :=
  let depth := if recursive then tree.entries.length + 1 else 1
  ⟨[], false⟩ :: below tree (Ignore.Scope.at tree place) place depth

/-- Whether a name has an extension and is not excluded. -/
def isWanted (extension : Text) (excluded : Text → Bool) (names : List Text) : Bool :=
  match names.getLast? with
  | some name => (Path.splitName name).2 = some extension && !excluded name
  | none => false

/-- The regular files with an extension among what a walk comes to that are not excluded by name, in
the order of their names. -/
def sources (extension : Text) (excluded : Text → Bool) (found : List Found) : List (List Text) :=
  let files := found.filter fun found ↦ found.isFile && isWanted extension excluded found.names
  (files.map Found.names).mergeSort fun a b ↦ !Path.namesBefore b a

end Weave.Walk
