import Weave.Text.Search
import Weave.Text.Line
import Weave.Error

/-!
# Included files

A directive `@[options](path)` stands for the content of a file, or for the part of it between two
markers. What takes the place of a directive is not searched for further directives.

## Main definitions

* `Weave.Include.Options.parse`: the option list of a directive.
* `Weave.Include.extract`: the part of a file that the options select.
* `Weave.Include.nextDirective?`: the first directive of a document.
* `Weave.Include.resolve`: the document with its directives replaced.

## Main results

* `Weave.Include.eq_append_of_nextDirective?`: a document is what stands around its first directive,
  with the directive between.
-/

namespace Weave.Include

/-- Which part of an included file is kept. -/
structure Options where
  /-- The text begins on the line after the first line that holds this marker. -/
  ini : Option Text := none
  /-- The text stops before the next line that holds this marker. -/
  fin : Option Text := none
  deriving Repr, DecidableEq

/-- An equals sign or a colon. -/
def isKeyEnd (c : Char) : Bool := c = '=' || c = ':'

/-- The options after one more part of the list; `none` if the part is malformed. -/
def Options.add? (options : Options) (part : Text) : Option Options :=
  if Text.allBlank part then some options
  else
    match Text.splitOnce? isKeyEnd part with
    | none => none
    | some (key, value) =>
      if Text.trim key = "ini".toList then some { options with ini := some value }
      else if Text.trim key = "end".toList then some { options with fin := some value }
      else none

/-- The option list of a directive: parts between commas, each a key, an equals sign or colon, and a
value that is taken as it stands. -/
def Options.parse (raw : Text) : Except Error Options :=
  match (Text.splitWhere (· = ',') raw).foldlM Options.add? {} with
  | some options => .ok options
  | none => .error (.invalidIncludeOptions raw)

/-- Whether a line holds a marker. -/
def holdsMarker (marker line : Text) : Bool := Text.holds marker line

/-- The lines of a file that the options select. The line with the opening marker is not searched
for the closing one. -/
def select (options : Options) (ls : List Text) : List Text :=
  let inside :=
    match options.ini with
    | none => ls
    | some ini => (ls.dropWhile fun line ↦ !holdsMarker ini line).drop 1
  match options.fin with
  | none => inside
  | some fin => inside.takeWhile fun line ↦ !holdsMarker fin line

/-- The text without one line feed at its end. -/
def dropFinalBreak (t : Text) : Text :=
  match t.getLast? with
  | some '\n' => t.dropLast
  | _ => t

/-- The part of a file that the options select, without one line feed at its end. -/
def extract (options : Options) (content : Text) : Text :=
  dropFinalBreak (select options (Text.brokenLines content)).flatten

/-- A directive, with the text before it and after it. -/
structure Directive where
  before : Text
  raw : Text
  target : Text
  after : Text
  deriving Repr, DecidableEq

/-- The text up to the character `closing` on the same line, and the text after that character. -/
def upTo? (closing : Char) : Text → Option (Text × Text)
  | [] => none
  | c :: cs =>
    if c = closing then some ([], cs)
    else if c = '\n' then none
    else (upTo? closing cs).map fun (inside, rest) ↦ (c :: inside, rest)

/-- The option list and the target of a directive at the start of a text, and what follows it. -/
def directive? : Text → Option (Text × Text × Text)
  | '@' :: '[' :: t =>
    match upTo? ']' t with
    | some (raw, '(' :: rest) => (upTo? ')' rest).map fun (target, after) ↦ (raw, target, after)
    | _ => none
  | _ => none

/-- The first directive of a document. -/
def nextDirective? : Text → Option Directive
  | [] => none
  | c :: cs =>
    match directive? (c :: cs) with
    | some (raw, target, after) => some ⟨[], raw, target, after⟩
    | none => (nextDirective? cs).map fun d ↦ { d with before := c :: d.before }

theorem eq_append_of_upTo? {closing : Char} {t inside rest : Text}
    (h : upTo? closing t = some (inside, rest)) : t = inside ++ closing :: rest := by
  induction t generalizing inside with
  | nil => simp [upTo?] at h
  | cons c cs ih =>
    rw [upTo?] at h
    split at h
    · simp only [Option.some.injEq, Prod.mk.injEq] at h
      obtain ⟨rfl, rfl⟩ := h
      simp [*]
    · split at h
      · simp at h
      · simp only [Option.map_eq_some_iff, Prod.mk.injEq] at h
        obtain ⟨⟨i, r⟩, hir, rfl, rfl⟩ := h
        simp [ih hir]

theorem eq_append_of_directive? {t raw target after : Text}
    (h : directive? t = some (raw, target, after)) :
    t = ['@', '['] ++ raw ++ [']', '('] ++ target ++ ')' :: after := by
  unfold directive? at h
  split at h
  · rename_i t
    split at h
    · rename_i r rest hraw
      simp only [Option.map_eq_some_iff, Prod.mk.injEq] at h
      obtain ⟨⟨g, a⟩, hga, rfl, rfl, rfl⟩ := h
      simp [eq_append_of_upTo? hraw, eq_append_of_upTo? hga]
    · simp at h
  · simp at h

/-- A document is what stands around its first directive, with the directive between. -/
theorem eq_append_of_nextDirective? {document : Text} {d : Directive}
    (h : nextDirective? document = some d) :
    document = d.before ++ ['@', '['] ++ d.raw ++ [']', '('] ++ d.target ++ ')' :: d.after := by
  induction document generalizing d with
  | nil => simp [nextDirective?] at h
  | cons c cs ih =>
    rw [nextDirective?] at h
    split at h
    · rename_i raw target after hd
      simp only [Option.some.injEq] at h
      subst h
      simpa using eq_append_of_directive? hd
    · simp only [Option.map_eq_some_iff] at h
      obtain ⟨e, he, rfl⟩ := h
      simpa using ih he

/-- What follows the first directive is shorter than the document. -/
theorem length_lt_of_nextDirective? {document : Text} {d : Directive}
    (h : nextDirective? document = some d) : d.after.length < document.length := by
  have := congrArg List.length (eq_append_of_nextDirective? h)
  simp only [List.length_append, List.length_cons] at this
  omega

/-- The document with its directives replaced, the files being read by `read`. The first directive
that fails, in its options or in its file, fails the document. -/
def resolve (read : Text → Except Text Text) (document : Text) : Except Error Text :=
  match _h : nextDirective? document with
  | none => .ok document
  | some d =>
    match Options.parse d.raw with
    | .error e => .error e
    | .ok options =>
      match read (Text.trim d.target) with
      | .error reason => .error (.includeNotFound (Text.trim d.target) reason)
      | .ok content =>
        match resolve read d.after with
        | .error e => .error e
        | .ok rest => .ok (d.before ++ extract options content ++ rest)
termination_by document.length
decreasing_by exact length_lt_of_nextDirective? _h

end Weave.Include
