import Weave.Text.Basic

/-!
# Registries

A registry holds values under names, in the order of the names by their characters.

## Main definitions

* `Weave.Registry`: the type.
* `Weave.Registry.insert`, `Weave.Registry.get?`, `Weave.Registry.replace`, `Weave.Registry.map`.
-/

namespace Weave

/-- Whether one text comes before another, by the numbers of their characters. -/
def Text.before : Text → Text → Bool
  | _, [] => false
  | [], _ :: _ => true
  | a :: s, b :: t => a < b || (a = b && Text.before s t)

/-- Values under names, in the order of the names. -/
structure Registry (α : Type) where
  entries : List (Text × α) := []
  deriving Repr

namespace Registry

variable {α β : Type}

/-- The names, in order. -/
def names (r : Registry α) : List Text := r.entries.map Prod.fst

/-- The value under a name. -/
def get? (r : Registry α) (name : Text) : Option α := r.entries.lookup name

/-- The entries with a value put under a name, in the place of the name. -/
def insertEntry (name : Text) (value : α) : List (Text × α) → List (Text × α)
  | [] => [(name, value)]
  | (n, v) :: rest =>
    if n = name then (name, value) :: rest
    else if Text.before name n then (name, value) :: (n, v) :: rest
    else (n, v) :: insertEntry name value rest

/-- The registry with a value put under a name; a value already there is replaced. -/
def insert (r : Registry α) (name : Text) (value : α) : Registry α :=
  ⟨insertEntry name value r.entries⟩

/-- The registry of some names with values; of two values under one name the later is kept. -/
def ofList (entries : List (Text × α)) : Registry α :=
  entries.foldl (fun r (name, value) ↦ r.insert name value) {}

/-- The registry with the values of another laid over its own. -/
def overlay (r s : Registry α) : Registry α :=
  s.entries.foldl (fun r (name, value) ↦ r.insert name value) r

/-- The registry with the value under a name replaced. A name that is not there stays absent. -/
def replace (r : Registry α) (name : Text) (value : α) : Registry α :=
  ⟨r.entries.map fun (n, v) ↦ (n, if n = name then value else v)⟩

/-- The registry with a function applied to every name and value. -/
def map (f : Text → α → β) (r : Registry α) : Registry β :=
  ⟨r.entries.map fun (name, value) ↦ (name, f name value)⟩

@[simp]
theorem names_replace (r : Registry α) (name : Text) (value : α) :
    (r.replace name value).names = r.names := by
  simp [names, replace]

@[simp]
theorem names_map (f : Text → α → β) (r : Registry α) : (r.map f).names = r.names := by
  simp [names, map]

end Registry

end Weave
