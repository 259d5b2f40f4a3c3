import Weave.Text.Octets
import Weave.Text.Pattern

/-!
# Wildcards

In a pattern an asterisk stands for any number of octets, a question mark for one, and a bracket
expression for one of a set. Quoted octets stand for themselves.

## Main definitions

* `Weave.Shell.Glyph`: an octet with the mark whether it was quoted.
* `Weave.Shell.Wildcard.ofGlyphs`: the pattern that a word stands for.
* `Weave.Shell.Wildcard.withoutStart`, `Weave.Shell.Wildcard.withoutEnd`.
-/

namespace Weave.Shell

/-- An octet of an expanded word. -/
structure Glyph where
  octet : Char
  quoted : Bool
  deriving Repr, DecidableEq

/-- Octets as glyphs. -/
def Glyph.ofOctets (quoted : Bool) (octets : Octets) : List Glyph := octets.map (⟨·, quoted⟩)

namespace Wildcard

open Pattern

/-- The ranges of a bracket expression up to the bracket that closes it, and what follows. A closing
bracket that comes first stands for itself. -/
def setRanges (first : Bool) : Nat → List Glyph → Option (List (Char × Char) × List Glyph)
  | 0, _ => none
  | _, [] => none
  | bound + 1, g :: gs =>
    if g.octet = ']' && !g.quoted && !first then some ([], gs)
    else
      let isClass := g.octet = '[' && !g.quoted && (gs.head?.map Glyph.octet) = some ':'
      let name := (gs.drop 1).takeWhile fun h ↦ h.octet ≠ ':'
      let after := gs.drop (name.length + 1)
      if isClass && (after.take 2).map Glyph.octet = [':', ']'] then
        (setRanges false bound (after.drop 2)).map fun (ranges, rest) ↦
          (CharClass.rangesOf (name.map Glyph.octet) ++ ranges, rest)
      else
        match gs with
        | dash :: high :: rest =>
          if dash.octet = '-' && !dash.quoted && (high.octet ≠ ']' || high.quoted) then
            (setRanges false bound rest).map fun (ranges, rest) ↦
              ((g.octet, high.octet) :: ranges, rest)
          else
            (setRanges false bound gs).map fun (ranges, rest) ↦ ((g.octet, g.octet) :: ranges, rest)
        | _ =>
          (setRanges false bound gs).map fun (ranges, rest) ↦ ((g.octet, g.octet) :: ranges, rest)

/-- The bracket expression after its opening bracket, and what follows. -/
def set? (glyphs : List Glyph) : Option (Element × List Glyph) :=
  let negated := (glyphs.head?.map fun g ↦ (g.octet = '!' || g.octet = '^') && !g.quoted).getD false
  let inner := if negated then glyphs.drop 1 else glyphs
  (setRanges true (inner.length + 1) inner).map fun (ranges, rest) ↦ (.one ⟨negated, ranges⟩, rest)

/-- The elements that glyphs stand for. A bracket that nothing closes stands for itself, and an
unquoted backslash quotes the glyph after it. -/
def elements : Nat → List Glyph → Pattern
  | 0, _ => []
  | _, [] => []
  | bound + 1, g :: gs =>
    if g.quoted then .character g.octet :: elements bound gs
    else if g.octet = '*' then .many .any :: elements bound gs
    else if g.octet = '?' then .one .any :: elements bound gs
    else if g.octet = '[' then
      match set? gs with
      | some (element, rest) => element :: elements bound rest
      | none => .character '[' :: elements bound gs
    else if g.octet = '\\' then
      match gs with
      | h :: rest => .character h.octet :: elements bound rest
      | [] => [.character '\\']
    else .character g.octet :: elements bound gs

/-- The pattern that glyphs stand for. -/
def ofGlyphs (glyphs : List Glyph) : Pattern := elements glyphs.length glyphs

/-- Whether glyphs hold an unquoted character that makes a pattern of them. -/
def isSpecial (glyphs : List Glyph) : Bool :=
  glyphs.any fun g ↦ !g.quoted && (g.octet = '*' || g.octet = '?' || g.octet = '[')

/-- Octets without the shortest or longest part at the start that a pattern matches. -/
def withoutStart (pattern : Pattern) (longest : Bool) (octets : Octets) : Octets :=
  let cuts := List.range (octets.length + 1)
  match (if longest then cuts.reverse else cuts).find? fun n ↦ pattern.isMatch (octets.take n) with
  | some n => octets.drop n
  | none => octets

/-- Octets without the shortest or longest part at the end that a pattern matches. -/
def withoutEnd (pattern : Pattern) (longest : Bool) (octets : Octets) : Octets :=
  let cuts := List.range (octets.length + 1)
  match (if longest then cuts else cuts.reverse).find? fun n ↦ pattern.isMatch (octets.drop n) with
  | some n => octets.take n
  | none => octets

end Wildcard

end Weave.Shell
