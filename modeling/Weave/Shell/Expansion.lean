import Weave.Shell.Arithmetic
import Weave.Shell.Fields
import Weave.Shell.Script

/-!
# Expansion

A word is expanded part by part, then split into fields, and fields that are patterns are replaced
by the names of the files that they match.

## Main definitions

* `Weave.Shell.Expansion.words`: the fields of some words.
* `Weave.Shell.Expansion.text`, `Weave.Shell.Expansion.glyphs`: a word that is not split.
-/

namespace Weave.Shell.Expansion

/-! ### Parameters -/

/-- The separators of fields. -/
def separators (state : State) : Octets :=
  match state.bindings.lookup "IFS".toList with
  | some ⟨some value, _, _⟩ => value
  | _ => [' ', '\t', '\n']

/-- The value of a parameter, if it is set. -/
def parameter (state : State) (name : Octets) : Option Octets :=
  match name with
  | ['#'] => some (Octets.ofNat state.positional.length)
  | ['?'] => some (Octets.ofNat state.status)
  | ['$'] => some (Octets.ofNat state.process)
  | ['-'] => some (state.options.letters)
  | ['!'] => state.jobs.head?.map fun (process, _) ↦ Octets.ofNat process
  | ['@'] | ['*'] =>
    if state.positional.isEmpty then none
    else some (Text.joinWith ((separators state).take 1) state.positional)
  | _ =>
    match Octets.toNat? name with
    | some 0 => some state.name
    | some n => state.positional[n - 1]?
    | none => state.lookup name

/-- The fragments of a value. -/
def ofValue (quoted : Bool) (value : Octets) : List Fragment :=
  [if quoted then .plain (Glyph.ofOctets true value) else .value value]

/-- The fragments of a parameter that is taken as it is. -/
def ofParameter (state : State) (name : Octets) (quoted : Bool) : List Fragment :=
  match name, quoted with
  | ['@'], _ => [.several state.positional quoted]
  | ['*'], false => [.several state.positional false]
  | _, _ => ofValue quoted ((parameter state name).getD [])

/-- The value of a parameter that has to be set if unset parameters are errors. -/
def checkSet (name : Octets) : Action Unit := do
  let state ← get
  let known := (parameter state name).isSome || name = ['@'] || name = ['*']
  if state.options.has "nounset" && !known then
    fail (name ++ ": parameter not set".toList)

/-- Whether a parameter has a value to use. -/
def isUsable (state : State) (name : Octets) (orEmpty : Bool) : Bool :=
  match parameter state name with
  | none => false
  | some value => !(orEmpty && value.isEmpty)

/-- A value without a part at one of its ends that a pattern matches. -/
def without (atEnd longest : Bool) (pattern : List Glyph) (value : Octets) : Octets :=
  let pattern := Wildcard.ofGlyphs pattern
  if atEnd then Wildcard.withoutEnd pattern longest value
  else Wildcard.withoutStart pattern longest value

/-! ### Parts -/

/-- The glyphs of fragments that are not split. -/
def joined (state : State) (fragments : List Fragment) : List Glyph :=
  fragments.flatMap (Fragment.joined (separators state))

/-- The octets of fragments that are not split. -/
def joinedText (state : State) (fragments : List Fragment) : Octets :=
  (joined state fragments).map Glyph.octet

/-- The value of an arithmetic expression, whose assignments are made. -/
def arithmetic (octets : Octets) : Action Int := do
  match Arithmetic.read octets with
  | none => fail (Arithmetic.Failure.notExpression octets).message
  | some expression =>
    let state ← get
    match expression.evaluate (fun name ↦ (parameter state name).getD []) [] with
    | .error failure => fail failure.message
    | .ok (value, assigned) =>
      assigned.reverse.forM fun (name, n) ↦ assign name (Octets.ofInt n)
      return value

/-- The octets that a command prints, without the line feeds at their end. -/
def output (run : Inner) (command : Command) : Action Octets := do
  let (octets, status) ← capture run (run command)
  modify ({ · with substituted := status })
  return Text.trimEndWhere (· = '\n') (octets.filter (· ≠ '\x00'))

mutual

/-- What a part of a word expands to. -/
def ofPart (run : Inner) : Part → Action (List Fragment)
  | .text octets quoted => return [.plain (Glyph.ofOctets quoted octets)]
  | .home => return [.plain (Glyph.ofOctets true (((← get).lookup "HOME".toList).getD ['~']))]
  | .output command quoted => return ofValue quoted (← output run command)
  | .number expression quoted => do
    let fragments ← ofParts run expression
    return ofValue quoted (Octets.ofInt (← arithmetic (joinedText (← get) fragments)))
  | .parameter name use quoted => ofUse run name quoted use

/-- What is taken of a parameter. -/
def ofUse (run : Inner) (name : Octets) (quoted : Bool) :
    Use → Action (List Fragment)
  | .value => do
    checkSet name
    return ofParameter (← get) name quoted
  | .length => do
    checkSet name
    return ofValue quoted (Octets.ofNat ((parameter (← get) name).getD []).length)
  | .otherwise orEmpty word => do
    if isUsable (← get) name orEmpty then return ofParameter (← get) name quoted
    else return (← ofParts run word).map (Fragment.inPlace quoted)
  | .instead orEmpty word => do
    if isUsable (← get) name orEmpty then
      return (← ofParts run word).map (Fragment.inPlace quoted)
    else return ofValue quoted []
  | .assigned orEmpty word => do
    if isUsable (← get) name orEmpty then return ofParameter (← get) name quoted
    else
      let fragments ← ofParts run word
      assign name (joinedText (← get) fragments)
      return ofParameter (← get) name quoted
  | .demanded orEmpty word => do
    if isUsable (← get) name orEmpty then return ofParameter (← get) name quoted
    else
      let fragments ← ofParts run word
      let message := joinedText (← get) fragments
      let message :=
        if !message.isEmpty then message
        else if orEmpty then "parameter not set or null".toList else "parameter not set".toList
      fail (name ++ ": ".toList ++ message)
  | .without atEnd longest pattern => do
    checkSet name
    let fragments ← ofParts run pattern
    let state ← get
    return ofValue quoted
      (without atEnd longest (joined state fragments) ((parameter state name).getD []))

/-- What the parts of a word expand to. -/
def ofParts (run : Inner) : List Part → Action (List Fragment)
  | [] => return []
  | part :: rest => do
    let first ← ofPart run part
    return first ++ (← ofParts run rest)

end

/-! ### File names -/

/-- Glyphs parted at their slashes. -/
def components : List Glyph → List (List Glyph)
  | [] => [[]]
  | g :: gs =>
    if g.octet = '/' then [] :: components gs
    else
      match components gs with
      | [] => [[g]]
      | component :: rest => (g :: component) :: rest

/-- Octets in the order of their bytes. -/
def ordered (names : List Octets) : List Octets :=
  names.mergeSort fun a b ↦ decide (¬b.map Char.toNat < a.map Char.toNat)

/-- The names in a directory that a pattern matches. A leading full stop has to be written. -/
def matchingNames (tree : FileTree) (dir : List Text) (path : Octets) (pattern : List Glyph) :
    List Octets :=
  let here := if path.isEmpty then Path.here else Octets.toText path
  match tree.locate dir here with
  | .ok (place, some .directory) =>
    let hidden := (pattern.head?.map Glyph.octet) = some '.'
    let names := (tree.children place).map fun (name, _) ↦ Octets.ofText name
    let names := if hidden then [['.'], ['.', '.']] ++ names else names
    ordered (names.filter fun name ↦
      (hidden || name.head? ≠ some '.') && (Wildcard.ofGlyphs pattern).isMatch name)
  | _ => []

/-- The paths that a list of components matches, each after a path that has been matched. -/
def matchingPaths (tree : FileTree) (dir : List Text) (path : Octets) :
    List (List Glyph) → List Octets
  | [] => [path]
  | component :: rest =>
    let plain := component.map Glyph.octet
    let slash (octets : Octets) : Octets := if rest.isEmpty then octets else octets ++ ['/']
    if Wildcard.isSpecial component then
      (matchingNames tree dir path component).flatMap fun name ↦
        let found := path ++ name
        if rest.isEmpty then [found]
        else if tree.isDirectory dir (Octets.toText found) then
          matchingPaths tree dir (found ++ ['/']) rest
        else []
    else
      let found := path ++ plain
      if rest.isEmpty && !plain.isEmpty then
        match tree.locateWith false dir (Octets.toText found) with
        | .ok (_, some _) => [found]
        | _ => []
      else matchingPaths tree dir (slash found) rest

/-- The octets that a field stands for: the files that it matches, or itself. -/
def pathnames (state : State) (tree : FileTree) (field : List Glyph) : List Octets :=
  let plain := field.map Glyph.octet
  if state.options.has "noglob" || !Wildcard.isSpecial field then [plain]
  else
    match matchingPaths tree state.dir [] (components field) with
    | [] => [plain]
    | found => found

/-! ### Words -/

/-- The fields of some words. -/
def words (run : Inner) : List Word → Action (List Octets)
  | [] => return []
  | word :: rest => do
    let fragments ← ofParts run word
    let state ← get
    let tree ← proc Kernel.files
    let fields := Fields.ofFragments (separators state) fragments
    return fields.flatMap (pathnames state tree) ++ (← words run rest)

/-- The glyphs of a word that is not split. -/
def glyphs (run : Inner) (word : Word) : Action (List Glyph) := do
  let fragments ← ofParts run word
  return joined (← get) fragments

/-- The octets of a word that is not split. -/
def text (run : Inner) (word : Word) : Action Octets :=
  return (← glyphs run word).map Glyph.octet

end Weave.Shell.Expansion
