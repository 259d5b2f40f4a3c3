import Weave.Text.Basic

/-!
# Values of a TOML document

A document is a tree of tables. A table remembers how it came to be, because that decides which
later statements may add to it.

## Main definitions

* `Weave.Toml.Value`, `Weave.Toml.Origin`, `Weave.Toml.Entries`.
* `Weave.Toml.Statement`: one line of a document.
-/

namespace Weave.Toml

/-- How a table came to be. -/
inductive Origin where
  /-- It has a header of its own, or is the whole document. -/
  | header
  /-- It stands in the header of another table. -/
  | supertable
  /-- It stands before the last part of a dotted key. -/
  | dotted
  /-- It was written between braces; nothing can be added to it. -/
  | inline
  deriving Repr, DecidableEq

/-- A value. -/
inductive Value where
  | string (text : Text)
  | integer (number : Int)
  /-- A truth value, a fractional number, a date or a time, as it is written. -/
  | scalar (text : Text)
  | array (elements : List Value)
  | table (origin : Origin) (entries : List (Text × Value))
  /-- Tables that were added one after the other under the same doubly bracketed header. -/
  | tables (elements : List (List (Text × Value)))
  deriving Repr

/-- The keys of a table with their values. -/
abbrev Entries := List (Text × Value)

/-- A line of a document. -/
inductive Statement where
  /-- A header that opens a table. -/
  | table (path : List Text) (last : Text)
  /-- A header that adds a table to an array of tables. -/
  | tables (path : List Text) (last : Text)
  /-- A key, whose parts before the last are given apart, and its value. -/
  | assign (path : List Text) (last : Text) (value : Value)
  deriving Repr

namespace Entries

/-- The entries with the value of a key replaced. -/
def replace (key : Text) (value : Value) (entries : Entries) : Entries :=
  entries.map fun (k, v) ↦ if k = key then (k, value) else (k, v)

/-- The entries after `change` has been applied to the table at a path. Missing tables are made on
the way. A dotted path may not pass through a table with a header of its own, and no path passes
through a value that is not open. -/
def changeAt (isDotted : Bool) (change : Origin → Entries → Option (Origin × Entries)) :
    List Text → Origin → Entries → Option (Origin × Entries)
  | [], origin, entries => change origin entries
  | key :: path, origin, entries =>
    match entries.lookup key with
    | none => do
      let (o, es) ← changeAt isDotted change path (if isDotted then .dotted else .supertable) []
      some (origin, entries ++ [(key, .table o es)])
    | some (.table .inline _) => none
    | some (.table o es) =>
      if isDotted && o = .header then none
      else do
        let (o, es) ← changeAt isDotted change path o es
        some (origin, replace key (.table o es) entries)
    | some (.tables elements) => do
      let (_, es) ← changeAt isDotted change path .header (elements.getLast?.getD [])
      some (origin, replace key (.tables (elements.dropLast ++ [es])) entries)
    | some _ => none

/-- The entries with a new key. Under a dotted key the table must have come to be by dotted keys. -/
def add? (isDotted : Bool) (key : Text) (value : Value) (origin : Origin) (entries : Entries) :
    Option (Origin × Entries) :=
  if (isDotted && origin ≠ .dotted) || (entries.lookup key).isSome then none
  else some (origin, entries ++ [(key, value)])

/-- The entries with the value of a key that may have several parts. -/
def assign? (path : List Text) (last : Text) (value : Value) (origin : Origin)
    (entries : Entries) : Option (Origin × Entries) :=
  changeAt true (add? (!path.isEmpty) last value) path origin entries

/-- The entries with a table opened under a key: a new one, or one that so far only stood in the
headers of others. -/
def openTable? (last : Text) (origin : Origin) (entries : Entries) : Option (Origin × Entries) :=
  match entries.lookup last with
  | none => some (origin, entries ++ [(last, .table .header [])])
  | some (.table .supertable es) => some (origin, replace last (.table .header es) entries)
  | some _ => none

/-- The entries with a table added to the array of tables under a key. -/
def addTable? (last : Text) (origin : Origin) (entries : Entries) : Option (Origin × Entries) :=
  match entries.lookup last with
  | none => some (origin, entries ++ [(last, .tables [[]])])
  | some (.tables elements) => some (origin, replace last (.tables (elements ++ [[]])) entries)
  | some _ => none

/-- The document after some more statements; `current` is the path of the table that is open. -/
def build? (current : List Text) (entries : Entries) : List Statement → Option Entries
  | [] => some entries
  | .table path last :: rest => do
    let (_, es) ← changeAt false (openTable? last) path .header entries
    build? (path ++ [last]) es rest
  | .tables path last :: rest => do
    let (_, es) ← changeAt false (addTable? last) path .header entries
    build? (path ++ [last]) es rest
  | .assign path last value :: rest => do
    let (_, es) ← changeAt false (assign? path last value) current .header entries
    build? current es rest

/-- The table that the pairs between two braces make. -/
def inline? (pairs : List (List Text × Text × Value)) : Option Entries :=
  pairs.foldlM (fun es (path, last, value) ↦ (assign? path last value .header es).map Prod.snd) []

end Entries

end Weave.Toml
