import Weave.Settings.Basic

/-!
# Languages

The language tag of a block decides what runs it. The profiles of the interpreters come first, in
the order of their names, then the tags of the shell.

## Main definitions

* `Weave.Language`: what runs a block.
* `Weave.Language.resolve`: the language of a tag.
-/

namespace Weave

/-- What runs a block. -/
inductive Language where
  /-- A new shell process. -/
  | shell
  /-- The interpreter under a name. -/
  | interpreter (name : Text)
  /-- Nothing: the tag is not known. -/
  | unsupported (tag : Text)
  deriving Repr, DecidableEq

namespace Language

/-- The tags of the shell. -/
def shellTags : List Text := ["sh".toList, "bash".toList, "shell".toList]

/-- The language of a tag. -/
def resolve (profiles : Registry Profile) (tag : Text) : Language :=
  match profiles.entries.find? fun (name, profile) ↦ profile.answersTo name tag with
  | some (name, _) => interpreter name
  | none => if shellTags.contains tag then shell else unsupported tag

/-- Whether anything runs blocks of the language. -/
def isSupported : Language → Bool
  | unsupported _ => false
  | _ => true

/-- The language as it is shown. -/
def label : Language → Text
  | shell => "shell".toList
  | interpreter name => name
  | unsupported tag => "unsupported (".toList ++ tag ++ [')']

/-- What stands for the result of a block in a language that is not known. -/
def unsupportedResult : Text := "ERROR: Code language is not supported.".toList

end Language

end Weave
