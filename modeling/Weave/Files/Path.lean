import Weave.Text.Search

/-!
# Paths

A path is a text whose names stand between slashes. Repeated slashes, and full stops that stand for
the directory itself, name nothing.

## Main definitions

* `Weave.Path.join`: a path taken from a directory.
* `Weave.Path.names`: the names of a path, with a full stop at the end where a directory is meant.
* `Weave.Path.parent`, `Weave.Path.fileName?`, `Weave.Path.withExtension`.

## Main results

* `Weave.Path.join_assoc`: a path may be taken from a directory step by step.
-/

namespace Weave.Path

/-- Whether a path starts at the root. -/
def isAbsolute : Text → Bool
  | '/' :: _ => true
  | _ => false

/-- A path taken from a directory; a path from the root stands for itself. -/
def join (dir path : Text) : Text :=
  if isAbsolute path then path
  else
    match dir.getLast? with
    | none => path
    | some '/' => dir ++ path
    | some _ => dir ++ '/' :: path

@[simp]
theorem join_of_isAbsolute {dir path : Text} (h : isAbsolute path = true) :
    join dir path = path := by
  simp [join, h]

theorem isAbsolute_cons (c : Char) (cs : Text) : isAbsolute (c :: cs) = decide (c = '/') := by
  unfold isAbsolute
  split <;> simp_all

theorem isAbsolute_append {dir : Text} (h : dir ≠ []) (rest : Text) :
    isAbsolute (dir ++ rest) = isAbsolute dir := by
  cases dir with
  | nil => exact absurd rfl h
  | cons c cs => rw [List.cons_append, isAbsolute_cons, isAbsolute_cons]

/-- A directory as it stands before a path that is taken from it: with a slash at its end. -/
def lead (dir : Text) : Text :=
  if dir.getLast?.all (· = '/') then dir else dir ++ ['/']

theorem join_of_not_isAbsolute {path : Text} (h : isAbsolute path = false) (dir : Text) :
    join dir path = lead dir ++ path := by
  rw [join, h, if_neg Bool.false_ne_true, lead]
  cases hlast : dir.getLast? with
  | none => simp [List.getLast?_eq_none_iff.mp hlast]
  | some c =>
    by_cases hc : c = '/'
    · simp [hc]
    · simp [hc]

theorem lead_lead (dir : Text) : lead (lead dir) = lead dir := by
  unfold lead
  split <;> simp_all

theorem lead_append_of_ne_nil (dir : Text) {path : Text} (h : path ≠ []) :
    lead (dir ++ path) = dir ++ lead path := by
  have hlast : (dir ++ path).getLast? = path.getLast? := by
    cases path with
    | nil => exact absurd rfl h
    | cons c cs =>
      rw [List.getLast?_append, List.getLast?_cons]
      rfl
  rw [lead, hlast, lead]
  split <;> simp

theorem isAbsolute_lead_append {dir : Text} (h : dir ≠ []) (path : Text) :
    isAbsolute (lead dir ++ path) = isAbsolute dir := by
  unfold lead
  split
  · exact isAbsolute_append h path
  · rw [List.append_assoc]
    exact isAbsolute_append h _

/-- A path taken from a directory is given from the root if the directory is. -/
theorem isAbsolute_join {dir : Text} (h : isAbsolute dir = true) (path : Text) :
    isAbsolute (join dir path) = true := by
  have hne : dir ≠ [] := by
    rintro rfl
    cases h
  cases hpath : isAbsolute path with
  | true => rwa [join_of_isAbsolute hpath]
  | false => rwa [join_of_not_isAbsolute hpath, isAbsolute_lead_append hne]

/-- A path may be taken from a directory step by step. -/
theorem join_assoc (dir base path : Text) :
    join (join dir base) path = join dir (join base path) := by
  cases hpath : isAbsolute path with
  | true => rw [join_of_isAbsolute hpath, join_of_isAbsolute hpath, join_of_isAbsolute hpath]
  | false =>
    cases hbase : isAbsolute base with
    | true => rw [join_of_isAbsolute hbase, join_of_isAbsolute (isAbsolute_join hbase path)]
    | false =>
      by_cases hne : base = []
      · have hnil : lead ([] : Text) = [] := rfl
        rw [hne, join_of_not_isAbsolute hpath, join_of_not_isAbsolute hpath, hnil, List.nil_append,
          join_of_not_isAbsolute hpath, join_of_not_isAbsolute rfl, List.append_nil, lead_lead]
      · have hrest : isAbsolute (lead base ++ path) = false := by
          rw [isAbsolute_lead_append hne, hbase]
        rw [join_of_not_isAbsolute hpath, join_of_not_isAbsolute hpath,
          join_of_not_isAbsolute hbase, join_of_not_isAbsolute hrest, lead_append_of_ne_nil _ hne,
          List.append_assoc]

/-- The directory itself. -/
def here : Text := ['.']

/-- The directory above. -/
def above : Text := ['.', '.']

/-- The names of a path in order. A slash at the end stands for the directory itself, which is kept
as a name there: what comes before it must be a directory. -/
def names (path : Text) : List Text :=
  let parts := (Text.splitWhere (· = '/') path).filter fun part ↦ !part.isEmpty
  match path.getLast? with
  | some '/' => parts ++ [here]
  | _ => parts

/-- The names of a path that name something. -/
def properNames (path : Text) : List Text := (names path).filter (· ≠ here)

/-- The path of some names from the root. -/
def ofNames (place : List Text) : Text :=
  if place.isEmpty then ['/'] else place.flatMap ('/' :: ·)

/-- The last name of a path, unless it is the directory above. -/
def fileName? (path : Text) : Option Text :=
  match (properNames path).getLast? with
  | none => none
  | some name => if name = above then none else some name

/-- The path without its last name; a full stop where nothing is left or there is no name. -/
def parent (path : Text) : Text :=
  match properNames path with
  | [] => here
  | names =>
    if isAbsolute path then ofNames names.dropLast
    else if names.dropLast.isEmpty then here
    else Text.joinWith ['/'] names.dropLast

/-- A file name at its last full stop: the stem and the extension. A full stop at the start of the
name does not part it. -/
def splitName (name : Text) : Text × Option Text :=
  match Text.splitOnce? (· = '.') name.reverse with
  | none => (name, none)
  | some (_, []) => (name, none)
  | some (extension, stem) => (stem.reverse, some extension.reverse)

/-- The path with another extension. -/
def withExtension (path extension : Text) : Text :=
  match fileName? path with
  | none => path
  | some name =>
    path.take (path.length - name.length) ++ (splitName name).1 ++ '.' :: extension

/-- Whether one list of names comes before another: by the first name that differs. -/
def namesBefore : List Text → List Text → Bool
  | _, [] => false
  | [], _ :: _ => true
  | a :: as, b :: bs =>
    if a = b then namesBefore as bs else decide (a.map Char.toNat < b.map Char.toNat)

end Weave.Path
