import Weave.Toml.Scalar

/-!
# TOML documents

A document is a list of lines, each a header, a key with a value, or nothing, with a comment at its
end.

## Main definitions

* `Weave.Toml.value?`: a value at the start of a text.
* `Weave.Toml.parse?`: the entries of a document.
-/

namespace Weave.Toml

/-- The text after a comment, if one starts it; `none` if the comment holds a character it may not
hold. -/
def skipComment? : Text → Option Text
  | '#' :: t =>
    let comment := t.takeWhile fun c ↦ c ≠ '\n' && c ≠ '\r'
    if comment.all isPrintable then some (t.drop comment.length) else none
  | t => some t

/-- The text after blanks, line ends and comments. -/
def skipLines? : (fuel : Nat) → Text → Option Text
  | 0, _ => none
  | fuel + 1, t => do
    let t ← skipComment? (t.dropWhile Text.isSpaceOrTab)
    match afterNewline? t with
    | some rest => skipLines? fuel rest
    | none => some t

mutual

/-- A value at the start of a text, and the text after it. -/
def value? : (fuel : Nat) → Text → Option (Value × Text)
  | 0, _ => none
  | fuel + 1, t =>
    match t with
    | '[' :: t => (elements? fuel t).map fun (vs, rest) ↦ (.array vs, rest)
    | '\x7b' :: t => do
      let (pairs, rest) ← pairs? fuel t
      let entries ← Entries.inline? pairs
      some (.table .inline entries, rest)
    | '\x22' :: _ => (string? t).map fun (s, rest) ↦ (.string s, rest)
    | '\x27' :: _ => (string? t).map fun (s, rest) ↦ (.string s, rest)
    | _ => bare? t

/-- The elements of an array up to its closing bracket. -/
def elements? : (fuel : Nat) → Text → Option (List Value × Text)
  | 0, _ => none
  | fuel + 1, t => do
    match ← skipLines? (t.length + 1) t with
    | ']' :: rest => some ([], rest)
    | t =>
      let (v, t) ← value? fuel t
      match ← skipLines? (t.length + 1) t with
      | ',' :: t => do
        let (vs, rest) ← elements? fuel t
        some (v :: vs, rest)
      | ']' :: rest => some ([v], rest)
      | _ => none

/-- The keys and values of an inline table up to its closing brace. -/
def pairs? : (fuel : Nat) → Text → Option (List (List Text × Text × Value) × Text)
  | 0, _ => none
  | fuel + 1, t => do
    match ← skipLines? (t.length + 1) t with
    | '\x7d' :: rest => some ([], rest)
    | t =>
      let (path, last, t) ← key? (t.length + 1) t
      match t with
      | '=' :: t =>
        let (v, t) ← value? fuel (t.dropWhile Text.isSpaceOrTab)
        match ← skipLines? (t.length + 1) t with
        | ',' :: t => do
          let (ps, rest) ← pairs? fuel t
          some ((path, last, v) :: ps, rest)
        | '\x7d' :: rest => some ([(path, last, v)], rest)
        | _ => none
      | _ => none

end

/-- The statement at the start of a line, and the text after it. -/
def statement? : Text → Option (Statement × Text)
  | '[' :: '[' :: t => do
    let (path, last, t) ← key? (t.length + 1) t
    match t with
    | ']' :: ']' :: rest => some (.tables path last, rest)
    | _ => none
  | '[' :: t => do
    let (path, last, t) ← key? (t.length + 1) t
    match t with
    | ']' :: rest => some (.table path last, rest)
    | _ => none
  | t => do
    let (path, last, t) ← key? (t.length + 1) t
    match t with
    | '=' :: t =>
      let t := t.dropWhile Text.isSpaceOrTab
      let (v, rest) ← value? (2 * t.length + 2) t
      some (.assign path last v, rest)
    | _ => none

/-- The statements of a document. -/
def statements? : (fuel : Nat) → Text → Option (List Statement)
  | 0, _ => none
  | fuel + 1, t => do
    match ← skipLines? (t.length + 1) t with
    | [] => some []
    | t =>
      let (s, t) ← statement? t
      match ← skipComment? (t.dropWhile Text.isSpaceOrTab) with
      | [] => some [s]
      | t => (← statements? fuel (← afterNewline? t)) |> (s :: ·) |> some

/-- The entries of a document; `none` if it is malformed. A byte order mark at its start does not
count. -/
def parse? (document : Text) : Option Entries := do
  let t := match document with
    | '\uFEFF' :: t => t
    | t => t
  Entries.build? [] [] (← statements? (t.length + 1) t)

end Weave.Toml
