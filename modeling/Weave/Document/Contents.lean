import Weave.Document.Heading
import Weave.Text.Search

/-!
# Table of contents

The table of contents lists the headings of a document, one linked item a line, each indented by one
tab for every level below the first. It takes the place of the first marker.

## Main definitions

* `Weave.Contents.render`: the lines for a list of headings.
* `Weave.Contents.insert`: the document with its first marker replaced.
-/

namespace Weave.Contents

/-- What the table of contents replaces. -/
def marker : Text := ['[', 'T', 'O', 'C', ']']

/-- The line for one heading. -/
def item (heading : Heading) : Text :=
  List.replicate (heading.level - 1) '\t' ++ ['*', ' ', '['] ++ heading.title ++ [']', '(', '#'] ++
    Heading.slug heading.title ++ [')', '\n']

/-- The lines for a list of headings. -/
def render (headings : List Heading) : Text := headings.flatMap item

/-- The document with its first marker replaced by the table of its headings. -/
def insert (document : Text) : Text :=
  Text.replaceFirst marker (render (Heading.find document)) document

/-- A document without the marker is unchanged. -/
theorem insert_of_holds_marker {document : Text}
    (h : Text.holds marker document = false) : insert document = document := by
  have hnone : Text.breakOn? marker document = none := by simpa [Text.holds] using h
  rw [insert, Text.replaceFirst, hnone]

end Weave.Contents
