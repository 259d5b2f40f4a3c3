import Weave.CommandLine.Invocation

/-!
# The program

The files below the working directory are read into a machine, the command line is run on it, and
what it has changed is written back. Blocks run on the programs of the machine.

## Main definitions

* `main`: the program.
-/

namespace Weave.Main

/-- The place of a path. -/
def placeOf (path : String) : List Text := Path.properNames path.toList

/-- The path of a place. -/
def pathOf (place : List Text) : String := String.ofList (Path.ofNames place)

/-- Reads an entry of a directory, and all below it. A link to a file is read as that file, and one
to a directory is left out. -/
partial def load (tree : FileTree) (found : IO.FS.DirEntry) : IO FileTree := do
  let place := placeOf found.path.toString
  match (← found.path.symlinkMetadata).type with
  | .dir => (← found.path.readDir).foldlM load (tree.install place .directory)
  | _ =>
    if ← found.path.isDir then return tree
    else
      let content ← IO.FS.readBinFile found.path
      return tree.install place (.file content.toList false)

/-- Writes what is new or has changed, and removes the files that are gone. -/
def save (before after : FileTree) : IO Unit := do
  for (place, held) in after.entries do
    unless before.get? place == some held do
      match held with
      | .directory => IO.FS.createDirAll (pathOf place)
      | .file content _ =>
        IO.FS.createDirAll (pathOf place.dropLast)
        IO.FS.writeBinFile (pathOf place) (ByteArray.mk content.toArray)
      | _ => pure ()
  for (place, held) in before.entries do
    match held with
    | .file .. => if (after.get? place).isNone then IO.FS.removeFile (pathOf place)
    | _ => pure ()

/-- What is shown of a failure. -/
def describe : Failure → Text
  | .refused e =>
    e.code.toList ++ ": ".toList ++ e.message ++
      ((e.help?.map fun help ↦ "\nhelp: ".toList ++ help.toList).getD [])
  | .unwritable fault => fault.message
  | .halted _ => "the run does not come to an end".toList

end Weave.Main

open Weave in
/-- Runs a command line in the working directory. Color is used unless the environment forbids it.
-/
def main (args : List String) : IO UInt32 := do
  let here ← IO.currentDir
  let place := Main.placeOf here.toString
  let tree ← (← here.readDir).foldlM Main.load (Program.installed.makeDirectories place)
  let machine : Machine :=
    { kernel := { tree }, dir := place, environment := Program.environment }
  let colored := (← IO.getEnv "NO_COLOR").isNone
  let (outcome, after) := Invocation.run colored (args.map String.toList) machine
  Main.save tree after.kernel.tree
  (← IO.getStdout).putStr (String.ofList outcome.output)
  if let some failure := outcome.failure then
    (← IO.getStderr).putStrLn (String.ofList (Main.describe failure))
  return UInt32.ofNat outcome.status
