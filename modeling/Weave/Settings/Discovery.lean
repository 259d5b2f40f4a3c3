import Weave.Files.Tree
import Weave.Settings.Reader

/-!
# Finding settings files

The settings of a directory stand in the first of the candidate files that is there. A file that is
named outright has to be there. How the document in a file is read can be chosen.

## Main definitions

* `Weave.Settings.locate?`: the settings file of a directory.
* `Weave.Settings.load`, `Weave.Settings.discover`: the settings of a file and of a directory.
-/

namespace Weave.Settings

/-- The path of the settings file of a directory. -/
def locate? (tree : FileTree) (place : List Text) (dir : Text) : Option Text :=
  (candidates.map (Path.join dir)).find? (tree.isFile place)

/-- The settings of the file at a path. -/
def load (tree : FileTree) (place : List Text) (path : Text)
    (reader : Text → Except Text Settings := read) : Except Error Settings :=
  match tree.readText place path with
  | .ok document => (reader document).mapError .configParse
  | .error fault => .error (.readInput path fault.message)

/-- The settings of a directory; nothing if it has no settings file. -/
def discover (tree : FileTree) (place : List Text) (dir : Text)
    (reader : Text → Except Text Settings := read) : Except Error (Option Settings) :=
  match locate? tree place dir with
  | none => .ok none
  | some path => (load tree place path reader).map some

end Weave.Settings
