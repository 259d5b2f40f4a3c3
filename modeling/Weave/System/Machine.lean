import Weave.Run.Host
import Weave.System.Program

/-!
# Machines

A machine is a host whose processes are computations over a kernel. A child process is such a
computation, held where it waits for its input.

## Main definitions

* `Weave.Machine`, `Weave.Child`: the world of a host and its children.
* `Weave.Machine.host`: the host.
-/

namespace Weave

/-- A kernel, and what the processes that are started from outside take over. -/
structure Machine where
  kernel : Kernel
  /-- The place of the working directory. -/
  dir : List Text := []
  environment : List (Octets × Octets) := []

/-- A child process. -/
structure Child where
  /-- The number of its standard input. -/
  input : Nat
  /-- The number of its standard output. -/
  output : Nat
  /-- How it goes on; nothing if it has come to its end. -/
  resume : Option (Kernel → Suspension Kernel (Except FileFault Nat))
  /-- The seconds that it has slept since it was last heard of. -/
  busy : Nat := 0
  /-- Whether its end has shown. -/
  gone : Bool := false

namespace Machine

/-- The machine with another kernel. -/
def withKernel (machine : Machine) (kernel : Kernel) : Machine := { machine with kernel }

/-- Does what a process does, as far as it gets without waiting. -/
def perform {α : Type} (machine : Machine) (p : Proc α) : Suspension Kernel α := p machine.kernel

/-- How a suspended process goes on. -/
def resumption {α : Type} : Suspension Kernel α → Option (Kernel → Suspension Kernel α)
  | .done .. => none
  | .waiting _ resume => some resume

/-- The place of the directory that a program is started in. -/
def placeOf (machine : Machine) (path : Text) : List Text :=
  (machine.kernel.tree.placeOf? machine.dir path).getD machine.dir

/-- A process that runs a program with an empty standard error. -/
def program (machine : Machine) (dir : List Text) (input output : Nat) (name : Text)
    (args : List Text) : Proc (Except FileFault Nat) := do
  let silent ← Kernel.addStream .null
  let inheritance : Inheritance :=
    { dir
      environment := machine.environment
      descriptors := [(0, input), (1, output), (2, silent)] }
  Program.start 64 inheritance (Octets.ofText name) (args.map Octets.ofText)

/-- Runs a program in a directory to its end. One that waits for input waits without end. -/
def runCommand (machine : Machine) (name : Text) (args : List Text) (dir : Text) :
    Option (Except Text Bytes) × Machine :=
  if (name :: args).any (·.contains '\x00') then
    (some (.error FileFault.nulInArgument.message), machine)
  else
    let process : Proc (Except FileFault Octets) := do
      let input ← Kernel.addStream .null
      let output ← Kernel.addStream (.sink [])
      match ← machine.program (machine.placeOf dir) input output name args with
      | .error fault => return .error fault
      | .ok _ => return .ok (← Kernel.written output)
    match machine.perform process with
    | .done kernel (.ok octets) => (some (.ok octets.toBytes), machine.withKernel kernel)
    | .done kernel (.error fault) => (some (.error fault.message), machine.withKernel kernel)
    | .waiting kernel _ => (none, machine.withKernel kernel)

/-- The octets that a child has printed, which are taken out of its output. -/
def takeOutput (kernel : Kernel) (output : Nat) : Octets × Kernel :=
  match kernel.streams[output]? with
  | some (.sink written) =>
    (written.reverse.flatten,
      { kernel with streams := kernel.streams.setIfInBounds output (.sink []) })
  | _ => ([], kernel)

/-- How a child has reacted that was let go on at a time. Of what it does after more sleep than is
allowed nothing shows. -/
def reaction (slept : Nat) (allowed : Option Nat) (child : Child) (kernel : Kernel) :
    Reaction Child × Kernel :=
  let busy := child.busy + (kernel.slept - slept)
  let inTime := allowed.all fun seconds ↦ busy < seconds
  if inTime then
    let (octets, kernel) := takeOutput kernel child.output
    let ended := child.resume.isNone
    ({ child := { child with busy := 0, gone := ended }, output := octets.toBytes, ended }, kernel)
  else ({ child := { child with busy }, output := [], ended := false }, kernel)

/-- Starts a child. -/
def startChild (machine : Machine) (name : Text) (args : List Text) (allowed : Option Nat) :
    Launch Child × Machine :=
  if (name :: args).any (·.contains '\x00') then
    (.failed FileFault.nulInArgument.message, machine)
  else
    let input := machine.kernel.streams.size
    let output := input + 1
    let kernel : Kernel :=
      { machine.kernel with
        streams := (machine.kernel.streams.push (.source [] true)).push (.sink []) }
    let suspension := (machine.withKernel kernel).perform
      (machine.program machine.dir input output name args)
    match suspension with
    | .done kernel (.error fault) => (.failed fault.message, machine.withKernel kernel)
    | _ =>
      let child : Child := { input, output, resume := resumption suspension }
      let (reaction, kernel) := reaction machine.kernel.slept allowed child suspension.world
      (.running reaction, machine.withKernel kernel)

/-- The kernel with something done to the standard input of a child. -/
def changeInput (kernel : Kernel) (child : Child) (change : Octets → Stream) : Kernel :=
  match kernel.streams[child.input]? with
  | some (.source waiting true) =>
    { kernel with streams := kernel.streams.setIfInBounds child.input (change waiting) }
  | _ => kernel

/-- Sends a line to a child. A child whose end has not shown yet takes it without an answer. -/
def send (machine : Machine) (child : Child) (line : Text) (allowed : Option Nat) :
    Option (Delivery Child) × Machine :=
  match child.resume with
  | none =>
    (some (if child.gone then .closed else .taken { child, output := [], ended := false }), machine)
  | some resume =>
    let kernel := changeInput machine.kernel child fun waiting ↦
      .source (waiting ++ Octets.ofText line ++ ['\n']) true
    let suspension := resume kernel
    let child := { child with resume := resumption suspension }
    let (reaction, kernel) := reaction machine.kernel.slept allowed child suspension.world
    (some (.taken reaction), machine.withKernel kernel)

/-- Closes the input of a child and gives it some seconds to end. A child that is still running
takes more than no time to end. -/
def finish (machine : Machine) (child : Child) (grace : Nat) : Option Ending × Machine :=
  match child.resume with
  | none => (some (if child.busy ≤ grace then .exited else .killed), machine)
  | some resume =>
    let suspension := resume (changeInput machine.kernel child fun waiting ↦ .source waiting false)
    let busy := child.busy + (suspension.world.slept - machine.kernel.slept)
    let ending := if busy < grace && (resumption suspension).isNone then .exited else .killed
    (some ending, machine.withKernel suspension.world)

/-- The host of a machine, whose clock shows the seconds since its start. -/
def host : Host Machine Child where
  clock machine := 1000000 + machine.kernel.slept
  readText machine path :=
    (machine.kernel.tree.readText machine.dir path).mapError FileFault.message
  isDirectory machine path := machine.kernel.tree.isDirectory machine.dir path
  runCommand := runCommand
  start := startChild
  send := send
  finish := finish
  kill machine _ := (some (), machine)

end Machine

end Weave
