import Weave.Text.Search
import Weave.Log

/-!
# Fences of executable blocks

An opening fence is a line of three backquotes, a language token, the word `exec` and option tokens.
The language may be glued to `exec` or stand apart from it; it is the shortest token that leaves an
`exec` behind it. A closing fence is a line of three backquotes and nothing else but blanks after
them.

## Main definitions

* `Weave.Fence.opening?`: the language and the options of an opening fence.
* `Weave.Fence.isClosing`: whether a line is a closing fence.
* `Weave.FenceOptions.parse`: what the option tokens ask for.
-/

namespace Weave

namespace Fence

/-- Three backquotes. -/
def ticks : Text := ['\x60', '\x60', '\x60']

/-- The word that marks a block for execution. -/
def keyword : Text := ['e', 'x', 'e', 'c']

/-- What follows the keyword, if the text is the keyword after spaces and tabs and then nothing, or
a space or tab and a rest without line feeds. -/
def afterKeyword? (t : Text) : Option Text :=
  match Text.after? keyword (Text.trimStartWhere Text.isSpaceOrTab t) with
  | none => none
  | some [] => some []
  | some (c :: cs) => if Text.isSpaceOrTab c ∧ '\n' ∉ cs then some (c :: cs) else none

/-- The shortest language token at the start of a text that leaves the keyword behind it, and what
follows the keyword. -/
def language? : Text → Option (Text × Text)
  | [] => none
  | c :: cs =>
    if Text.isBlank c then none
    else
      match afterKeyword? cs with
      | some tail => some ([c], tail)
      | none => (language? cs).map fun (language, tail) ↦ (c :: language, tail)

/-- The language and the option tokens of an opening fence. Line breaks at the end of the line do
not count. -/
def opening? (line : Text) : Option (Text × List Text) :=
  match Text.after? ticks (Text.trimEndWhere Text.isLineBreak line) with
  | none => none
  | some rest =>
    (language? (Text.trimStartWhere Text.isSpaceOrTab rest)).map fun (language, tail) ↦
      (language, Text.words tail)

/-- Whether a line is three backquotes and blanks. -/
def isClosing (line : Text) : Bool := Text.trimEnd line = ticks

end Fence

/-- What the option tokens of a fence ask for. -/
structure FenceOptions where
  /-- The directory to run the block in. -/
  path : Option Text := none
  /-- The source is left out. -/
  noCode : Bool := false
  /-- The result is left out. -/
  noEcho : Bool := false
  /-- The result stands without a fence. -/
  raw : Bool := false
  deriving Repr, DecidableEq

namespace FenceOptions

/-- The options after the given tokens, which are added to those already read. A `--path` takes the
token after it, whatever that is. -/
def parseFrom (options : FenceOptions) : List Text → FenceOptions
  | [] => options
  | token :: rest =>
    if token = "--path".toList then
      match rest with
      | [] => options
      | directory :: rest => parseFrom { options with path := some directory } rest
    else if token = "--no-code".toList then parseFrom { options with noCode := true } rest
    else if token = "--no-echo".toList then parseFrom { options with noEcho := true } rest
    else if token = "--raw".toList then parseFrom { options with raw := true } rest
    else parseFrom options rest

/-- What the option tokens of a fence ask for. Unknown tokens ask for nothing. -/
def parse (tokens : List Text) : FenceOptions := parseFrom {} tokens

/-- The warning about a `--path` at the end of the tokens. -/
def missingDirectory : Event :=
  ⟨.warn, "`--path` is missing its directory, ignoring it".toList, []⟩

/-- The warnings that go with `parse`. -/
def warnings : List Text → List Event
  | [] => []
  | token :: rest =>
    if token = "--path".toList then
      match rest with
      | [] => [missingDirectory]
      | _ :: rest => warnings rest
    else warnings rest

end FenceOptions

end Weave
