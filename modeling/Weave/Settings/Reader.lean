import Weave.Settings.Basic
import Weave.Toml.Document
import Weave.Error

/-!
# Settings files

Settings are read from a TOML document. Every key must be known, and every value must have the kind
that its key asks for. A record may also be written as an array of its fields in order.

## Main definitions

* `Weave.Settings.read`, `Weave.Settings.parse`: the settings of a document.
* `Weave.Settings.candidates`: where a settings file is looked for.
-/

namespace Weave

namespace Settings

open Toml (Value Entries)

/-- The names under which a settings file is looked for in a directory, in order. -/
def candidates : List Text :=
  ["mdoc.toml".toList, ".mdoc.toml".toList, ".config/mdoc.toml".toList]

/-- The values of the fields of a record. -/
structure Fields where
  names : List Text
  values : List (Option Value)

/-- The fields of a record: the entries of a table whose keys are all known, or the elements of an
array in order. -/
def fields? (names : List Text) : Value → Option Fields
  | .table _ entries =>
    if entries.all fun (key, _) ↦ names.contains key then
      some ⟨names, names.map (entries.lookup ·)⟩
    else none
  | .array elements => some ⟨names, elements.map some⟩
  | .tables elements => some ⟨names, elements.map fun es ↦ some (.table .header es)⟩
  | _ => none

/-- The value of a field. -/
def Fields.value? (fields : Fields) (name : String) : Option Value :=
  ((fields.names.zip fields.values).lookup name.toList).join

/-- A text. -/
def text? : Value → Option Text
  | .string t => some t
  | _ => none

/-- A list of texts. -/
def texts? : Value → Option (List Text)
  | .array vs => vs.mapM text?
  | .tables [] => some []
  | _ => none

/-- The greatest number of seconds: the greatest one that fits into 64 bits. -/
def mostSeconds : Nat := 18446744073709551615

/-- A number of seconds. -/
def seconds? : Value → Option Nat
  | .integer n => if 0 ≤ n ∧ n ≤ mostSeconds then some n.toNat else none
  | _ => none

/-- A field that may be absent: `default` stands for it then. -/
def Fields.optional {α : Type} (fields : Fields) (read : Value → Option α) (name : String)
    (default : α) : Option α :=
  match fields.value? name with
  | none => some default
  | some v => read v

/-- A field that must be there. -/
def Fields.required {α : Type} (fields : Fields) (read : Value → Option α) (name : String) :
    Option α :=
  (fields.value? name).bind read

/-- The settings of the shell. -/
def shell? (v : Value) : Option ShellSettings := do
  let f ← fields? ["program".toList, "args".toList] v
  let standard : ShellSettings := {}
  some {
    program := ← f.optional text? "program" standard.program
    args := ← f.optional texts? "args" standard.args }

/-- The fields of a profile, in order. -/
def profileFields : List Text :=
  ["command".toList, "args".toList, "aliases".toList, "prompt".toList, "sentinel".toList,
    "echo".toList, "comment".toList, "separator".toList, "chdir".toList, "timeout_secs".toList,
    "shutdown_timeout_secs".toList]

/-- The profile of an interpreter. -/
def profile? (v : Value) : Option Profile := do
  let f ← fields? profileFields v
  let standard : Profile := { command := [], echo := [] }
  some {
    command := ← f.required text? "command"
    args := ← f.optional texts? "args" standard.args
    aliases := ← f.optional texts? "aliases" standard.aliases
    prompt := ← f.optional text? "prompt" standard.prompt
    sentinel := ← f.optional text? "sentinel" standard.sentinel
    echo := ← f.required text? "echo"
    comment := ← f.optional (fun v ↦ (text? v).map some) "comment" standard.comment
    separator := ← f.optional text? "separator" standard.separator
    chdir := ← f.optional (fun v ↦ (text? v).map some) "chdir" standard.chdir
    timeoutSecs := ← f.optional (fun v ↦ (seconds? v).map some) "timeout_secs" standard.timeoutSecs
    shutdownTimeoutSecs :=
      ← f.optional seconds? "shutdown_timeout_secs" standard.shutdownTimeoutSecs }

/-- The profiles of the interpreters, by name. -/
def interpreters? : Value → Option (Registry Profile)
  | .table _ entries =>
    (entries.mapM fun (entry : Text × Value) ↦ (profile? entry.2).map (entry.1, ·)).map
      Registry.ofList
  | _ => none

/-- The settings that the entries of a document give. -/
def ofEntries? (entries : Entries) : Option Settings := do
  let f ← fields? ["shell".toList, "interpreters".toList] (.table .header entries)
  some {
    shell := ← f.optional shell? "shell" {}
    interpreters := ← f.optional interpreters? "interpreters" {} }

/-- The settings of a document, or why it is refused. -/
def read (document : Text) : Except Text Settings :=
  match Toml.parse? document with
  | none => .error "the document is malformed".toList
  | some entries =>
    match ofEntries? entries with
    | none => .error "a key is unknown, missing or of the wrong kind".toList
    | some settings => .ok settings

/-- The settings of a document. -/
def parse (document : Text) : Except Error Settings := (read document).mapError .configParse

end Settings

end Weave
