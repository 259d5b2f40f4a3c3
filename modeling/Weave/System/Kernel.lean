import Weave.Files.Tree
import Weave.Text.Octets
import Weave.System.Suspension

/-!
# Kernels

A kernel holds the files and the open streams that processes share. A process that reads from a
stream which is empty but still open waits until something is written to it or it is closed.

## Main definitions

* `Weave.Stream`, `Weave.Kernel`: what can be read and written.
* `Weave.Proc`: what processes do.
* `Weave.Kernel.readLine`, `Weave.Kernel.readSome`, `Weave.Kernel.write`, `Weave.Kernel.openRead`,
  `Weave.Kernel.openWrite`.
-/

namespace Weave

/-- What a process reads from or writes to. -/
inductive Stream where
  /-- A stream that is always empty and forgets what is written to it. -/
  | null
  /-- Octets that wait to be read, and whether others can follow them. -/
  | source (waiting : Octets) (isOpen : Bool)
  /-- What has been written, the latest first. -/
  | sink (written : List Octets)
  /-- A file that is read or written from an offset on, or always written at its end. -/
  | file (place : List Text) (offset : Nat) (atEnd : Bool)
  deriving Repr

/-- The files, the streams, and what else processes share. -/
structure Kernel where
  tree : FileTree := {}
  streams : Array Stream := #[]
  /-- The seconds that processes have slept. -/
  slept : Nat := 0
  /-- The number of the next process. -/
  nextProcess : Nat := 1000
  /-- The signals that processes have been sent and have not received yet, in order. -/
  signals : List (Nat × Nat) := []

/-- What a process does. -/
abbrev Proc := Suspending Kernel

/-- The number of rounds after which a loop without an end is given up. -/
def patience : Nat := 1000000

namespace Kernel

/-- The stream with a number. -/
def stream (number : Nat) : Proc Stream := return (← get).streams[number]?.getD .null

/-- Puts a stream in the place of another. -/
def setStream (number : Nat) (stream : Stream) : Proc Unit :=
  modify fun kernel ↦ { kernel with streams := kernel.streams.setIfInBounds number stream }

/-- The number of a new stream. -/
def addStream (stream : Stream) : Proc Nat :=
  modifyGet fun kernel ↦
    (kernel.streams.size, { kernel with streams := kernel.streams.push stream })

/-- The number of a new process. -/
def newProcess : Proc Nat :=
  modifyGet fun kernel ↦
    (kernel.nextProcess, { kernel with nextProcess := kernel.nextProcess + 1 })

/-- Sends a signal to a process. -/
def sendSignal (process signal : Nat) : Proc Unit :=
  modify fun kernel ↦ { kernel with signals := kernel.signals ++ [(process, signal)] }

/-- The signals that a process has been sent, which it has received then. -/
def takeSignals (process : Nat) : Proc (List Nat) :=
  modifyGet fun kernel ↦
    let (own, others) := kernel.signals.partition fun (receiver, _) ↦ receiver = process
    (own.map Prod.snd, { kernel with signals := others })

/-- Lets some seconds pass. -/
def sleep (seconds : Nat) : Proc Unit :=
  modify fun kernel ↦ { kernel with slept := kernel.slept + seconds }

/-- The files. -/
def files : Proc FileTree := return (← get).tree

/-- Changes the files. -/
def setFiles (tree : FileTree) : Proc Unit := modify fun kernel ↦ { kernel with tree }

/-- The octets of a file from an offset on. -/
def fileFrom (tree : FileTree) (place : List Text) (offset : Nat) : Octets :=
  match tree.get? place with
  | some (.file content _) => Octets.ofBytes (content.drop offset)
  | _ => []

/-- The first part of some octets that a choice of parts takes; what remains is left in the stream.
Nothing is taken where nothing is left. -/
def take (number : Nat) (choose : Octets → Octets) : Proc Octets := do
  match ← stream number with
  | .null => return []
  | .sink _ => return []
  | .source waiting isOpen =>
    let part := choose waiting
    setStream number (.source (waiting.drop part.length) isOpen)
    return part
  | .file place offset atEnd =>
    let part := choose (fileFrom (← files) place offset)
    setStream number (.file place (offset + part.length) atEnd)
    return part

/-- Waits until a stream holds something or is closed. -/
def await (number : Nat) : Proc Unit := do
  match ← stream number with
  | .source [] true => Suspending.pause
  | _ => return ()

/-- Octets up to their first line feed. -/
def firstLine (octets : Octets) : Octets :=
  let line := octets.takeWhile (· ≠ '\n')
  octets.take (line.length + 1)

/-- The next line of a stream with its line feed; nothing at the end. -/
def readLine (number : Nat) : Proc Octets := do
  await number
  take number firstLine

/-- What a stream holds; nothing at the end. -/
def readSome (number : Nat) : Proc Octets := do
  await number
  take number id

/-- What a stream holds until its end. -/
def readAll (number : Nat) : Proc Octets := do
  let parts ← iterate patience (fun (parts : List Octets) ↦ do
    let part ← readSome number
    return if part.isEmpty then Sum.inr parts else Sum.inl (part :: parts)) []
  return (parts.getD []).reverse.flatten

/-- The content of a file with something written at an offset. -/
def overwrite (content : Bytes) (offset : Nat) (new : Bytes) : Bytes :=
  content.take offset ++ List.replicate (offset - content.length) 0 ++ new ++
    content.drop (offset + new.length)

/-- Writes octets to a stream; the outcome says whether it can be written to. -/
def write (number : Nat) (octets : Octets) : Proc Bool := do
  match ← stream number with
  | .null => return true
  | .source .. => return false
  | .sink written =>
    setStream number (.sink (octets :: written))
    return true
  | .file place offset atEnd =>
    let tree ← files
    match tree.get? place with
    | some (.file content executable) =>
      let offset := if atEnd then content.length else offset
      let new := octets.toBytes
      setFiles (tree.put place (.file (overwrite content offset new) executable))
      setStream number (.file place (offset + new.length) atEnd)
      return true
    | _ => return true

/-- What has been written to a stream. -/
def written (number : Nat) : Proc Octets := do
  match ← stream number with
  | .sink written => return written.reverse.flatten
  | _ => return []

/-- Opens a file to read it. -/
def openRead (dir : List Text) (path : Text) : Proc (Except FileFault Nat) := do
  match (← files).locate dir path with
  | .ok (place, some (.file ..)) => return .ok (← addStream (.file place 0 false))
  | .ok (_, some .null) => return .ok (← addStream .null)
  | .ok (_, some .directory) => return .error .isDirectory
  | .ok _ => return .error .notFound
  | .error fault => return .error fault

/-- Opens a file to write it, and makes it if it is missing. What it held is dropped if `truncated`
says so. -/
def openWrite (dir : List Text) (path : Text) (truncated atEnd : Bool) :
    Proc (Except FileFault Nat) := do
  let tree ← files
  match tree.locate dir path with
  | .ok (place, some (.file _ executable)) =>
    if truncated then setFiles (tree.put place (.file [] executable))
    return .ok (← addStream (.file place 0 atEnd))
  | .ok (place, none) =>
    setFiles (tree.put place (.file [] false))
    return .ok (← addStream (.file place 0 atEnd))
  | .ok (_, some .null) => return .ok (← addStream .null)
  | .ok (_, some .directory) => return .error .isDirectory
  | .ok (_, some (.link _)) => return .error .tooManyLinks
  | .error fault => return .error fault

end Kernel

/-- What a process takes over from the one that starts it. -/
structure Inheritance where
  /-- The place of the working directory. -/
  dir : List Text
  environment : List (Octets × Octets)
  /-- The numbers of the streams that the process knows by numbers of its own. -/
  descriptors : List (Nat × Nat)
  /-- The number of the process that starts it. -/
  parent : Nat := 1

namespace Inheritance

/-- Writes octets to the standard output. -/
def print (inheritance : Inheritance) (octets : Octets) : Proc Unit := do
  match inheritance.descriptors.lookup 1 with
  | some number => let _ ← Kernel.write number octets
  | none => return ()

/-- Writes a line to the standard error. -/
def complain (inheritance : Inheritance) (line : Octets) : Proc Unit := do
  match inheritance.descriptors.lookup 2 with
  | some number => let _ ← Kernel.write number (line ++ ['\n'])
  | none => return ()

/-- The next part of the standard input; nothing at its end. -/
def readSome (inheritance : Inheritance) : Proc Octets :=
  match inheritance.descriptors.lookup 0 with
  | some number => Kernel.readSome number
  | none => return []

/-- The next part of the standard input: a line of a file, or what a stream holds; nothing at its
end. -/
def readPart (inheritance : Inheritance) : Proc Octets := do
  match inheritance.descriptors.lookup 0 with
  | some number =>
    match ← Kernel.stream number with
    | .file .. => Kernel.readLine number
    | _ => Kernel.readSome number
  | none => return []

/-- The standard input up to its end. -/
def readAll (inheritance : Inheritance) : Proc Octets :=
  match inheritance.descriptors.lookup 0 with
  | some number => Kernel.readAll number
  | none => return []

end Inheritance

end Weave
