import Weave.Shell.Wildcard

/-!
# Fields

An expanded word is a list of fields. Text that comes from unquoted expansions is split at the
separators: blanks among them end a field, and each of the others ends exactly one.

## Main definitions

* `Weave.Shell.Fragment`: what a part of a word expands to.
* `Weave.Shell.Fields.ofFragments`: the fields of a word.
* `Weave.Shell.Fragment.joined`: a word that is not split.
-/

namespace Weave.Shell

/-- What a part of a word expands to. -/
inductive Fragment where
  /-- Glyphs that stay in one field. -/
  | plain (glyphs : List Glyph)
  /-- Octets that are split. -/
  | value (octets : Octets)
  /-- Octets that are fields of their own, and whether they are quoted. -/
  | several (fields : List Octets) (quoted : Bool)

/-- Fields as they are being put together, the latest first. -/
structure Fields where
  finished : List (List Glyph) := []
  /-- The glyphs of the field that is open, the latest first. -/
  current : Option (List Glyph) := none
  /-- Whether a blank has just ended a field. -/
  afterBlank : Bool := false

namespace Fields

/-- Ends the field that is open. -/
def close (fields : Fields) : Fields :=
  match fields.current with
  | none => fields
  | some glyphs => { fields with finished := glyphs.reverse :: fields.finished, current := none }

/-- Adds glyphs to the field that is open, or opens one. -/
def push (fields : Fields) (glyphs : List Glyph) : Fields :=
  { fields with
    current := some (glyphs.reverse ++ fields.current.getD [])
    afterBlank := false }

/-- Adds an octet of a text that is split. -/
def splitOctet (separators : Octets) (fields : Fields) (c : Char) : Fields :=
  if !separators.contains c then fields.push [⟨c, false⟩]
  else if Octets.isBlank c then
    if fields.current.isSome then { fields.close with afterBlank := true } else fields
  else if fields.current.isSome then { fields.close with afterBlank := false }
  else if fields.afterBlank then { fields with afterBlank := false }
  else { fields with finished := [] :: fields.finished }

/-- Adds fields of their own: the first one continues the field that is open, and the last one stays
open. -/
def pushSeveral (add : Fields → Octets → Fields) (fields : Fields) : List Octets → Fields
  | [] => fields
  | [last] => add fields last
  | first :: rest => pushSeveral add (add fields first).close rest

/-- Adds a fragment. -/
def addFragment (separators : Octets) (fields : Fields) : Fragment → Fields
  | .plain glyphs => fields.push glyphs
  | .value octets => octets.foldl (splitOctet separators) fields
  | .several list true =>
    pushSeveral (fun fields octets ↦ fields.push (Glyph.ofOctets true octets)) fields list
  | .several list false =>
    pushSeveral (fun fields octets ↦ octets.foldl (splitOctet separators) fields) fields list

/-- The fields of a word. -/
def ofFragments (separators : Octets) (fragments : List Fragment) : List (List Glyph) :=
  (fragments.foldl (addFragment separators) {}).close.finished.reverse

end Fields

/-- The glyphs of a fragment in a word that is not split. -/
def Fragment.joined (separators : Octets) : Fragment → List Glyph
  | plain glyphs => glyphs
  | value octets => Glyph.ofOctets false octets
  | several fields quoted => Glyph.ofOctets quoted (Text.joinWith (separators.take 1) fields)

/-- A fragment of a word that takes the place of a parameter; if it is not quoted it is split as the
value of the parameter would be. -/
def Fragment.inPlace (quoted : Bool) : Fragment → Fragment
  | plain glyphs =>
    if quoted || glyphs.any Glyph.quoted || glyphs.isEmpty then plain glyphs
    else value (glyphs.map Glyph.octet)
  | other => other

end Weave.Shell
