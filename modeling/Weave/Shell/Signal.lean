import Weave.Text.Octets

/-!
# Signals

Signals are sent to processes by number or by name. A trap says what a shell does when one arrives;
the end of the shell counts as signal zero.

## Main definitions

* `Weave.Shell.Signal.name`: the name of a signal.
* `Weave.Shell.Signal.ofName?`: the signal of a name or of a number.
* `Weave.Shell.Signal.isHarmless`: whether a process outlives a signal that it does not handle.
-/

namespace Weave.Shell.Signal

/-- The end of the shell. -/
def atExit : Nat := 0

/-- The signal that a process cannot handle. -/
def kill : Nat := 9

/-- The signal that is sent if none is named. -/
def terminate : Nat := 15

/-- The greatest signal. -/
def last : Nat := 64

/-- The names of the signals below the real-time ones, in order. Some have no name. -/
def names : List String :=
  ["EXIT", "HUP", "INT", "QUIT", "ILL", "TRAP", "ABRT", "BUS", "FPE", "KILL", "USR1", "SEGV",
    "USR2", "PIPE", "ALRM", "TERM", "16", "CHLD", "CONT", "STOP", "TSTP", "TTIN", "TTOU", "URG",
    "XCPU", "XFSZ", "VTALRM", "PROF", "WINCH", "IO", "PWR", "SYS", "32", "33", "RTMIN"]

/-- The name of a signal. The real-time signals are counted from the first one and, in the upper
half, from the last one. -/
def name (signal : Nat) : Octets :=
  match names[signal]? with
  | some name => name.toList
  | none =>
    if signal < 50 then "RTMIN+".toList ++ Octets.ofNat (signal - 34)
    else if signal < last then "RTMAX-".toList ++ Octets.ofNat (last - signal)
    else "RTMAX".toList

/-- The signal of a name, in either case, or of a number. -/
def ofName? (octets : Octets) : Option Nat :=
  match Octets.toNat? octets with
  | some n => if n ≤ last then some n else none
  | none => (List.range (last + 1)).find? fun n ↦ name n = octets.map Char.toUpper

/-- Whether a process outlives a signal that it does not handle. -/
def isHarmless (signal : Nat) : Bool := [17, 18, 23, 28].contains signal

end Weave.Shell.Signal
