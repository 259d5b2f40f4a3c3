import Weave.Files.Tree
import Weave.Proofs.Siblings

/-!
# Resolution of paths

A path is resolved name by name. This file says what one name does, and what a whole resolution that
comes to an end is, as a relation beside the function. The names before the last one lead to a
directory, from which every other last name is looked up as well; and a resolution that ends where
nothing has changed is not changed by files that are written elsewhere.

## Main definitions

* `Weave.FileTree.Advances`, `Weave.FileTree.Resolves`: what one name does, and all names.
* `Weave.FileTree.Agrees`: trees that differ in files only.
* `Weave.FileTree.LinksLead`: every link leads to a directory.

## Main results

* `Weave.FileTree.follow_eq_ok_iff`: the relation and the function.
* `Weave.FileTree.Resolves.exists_append`: a resolution taken apart at a name.
* `Weave.FileTree.Resolves.agrees`: resolutions that written files leave as they are.
* `Weave.FileTree.IsSound.locate_sibling`: where the siblings of a file are.
-/

namespace Weave

namespace FileTree

/-! ### One name -/

/-- A name that is looked up in a directory leads to a place, with the names of a link before those
that follow and fewer links to go. -/
inductive Advances (tree : FileTree) (place : List Text) :
    (links : Nat) → (name : Text) → (left : Nat) → (next : List Text) → (before : List Text) → Prop
  | here (links : Nat) : Advances tree place links Path.here links place []
  | above (links : Nat) : Advances tree place links Path.above links place.dropLast []
  | enter (links : Nat) {name : Text} {entry : Entry} (hhere : name ≠ Path.here)
      (habove : name ≠ Path.above) (hsize : Utf8.size name ≤ 255)
      (hentry : tree.get? (place ++ [name]) = some entry) (hlink : ∀ target, entry ≠ .link target) :
      Advances tree place links name links (place ++ [name]) []
  | link (links : Nat) {name target : Text} (hhere : name ≠ Path.here)
      (habove : name ≠ Path.above) (hsize : Utf8.size name ≤ 255)
      (htarget : tree.get? (place ++ [name]) = some (.link target)) :
      Advances tree place (links + 1) name links (if Path.isAbsolute target then [] else place)
        (Path.names target)

variable {tree other : FileTree} {links left : Nat} {place next before : List Text} {name : Text}

theorem follow_nil (tree : FileTree) (throughLast : Bool) (links : Nat) (place : List Text) :
    tree.follow throughLast links place [] = .ok (place, tree.get? place) := by
  cases links <;> rfl

theorem follow_cons (tree : FileTree) (throughLast : Bool) (links : Nat) (place : List Text)
    (name : Text) (rest : List Text) :
    tree.follow throughLast links place (name :: rest) =
      match tree.get? place with
      | some .directory =>
        if name = Path.here then tree.follow throughLast links place rest
        else if name = Path.above then tree.follow throughLast links place.dropLast rest
        else if 255 < Utf8.size name then .error .nameTooLong
        else
          match tree.get? (place ++ [name]) with
          | none => if rest.isEmpty then .ok (place ++ [name], none) else .error .notFound
          | some (.link target) =>
            if rest.isEmpty && !throughLast then .ok (place ++ [name], some (.link target))
            else
              match links with
              | 0 => .error .tooManyLinks
              | links + 1 =>
                tree.follow throughLast links (if Path.isAbsolute target then [] else place)
                  (Path.names target ++ rest)
          | some _ => tree.follow throughLast links (place ++ [name]) rest
      | none => .error .notFound
      | some _ => .error .notDirectory := by
  cases links <;> rfl

/-- A name that leads on is replaced by what it leads to. -/
theorem Advances.follow_eq (hplace : tree.get? place = some .directory)
    (h : Advances tree place links name left next before) (rest : List Text) :
    tree.follow true links place (name :: rest) = tree.follow true left next (before ++ rest) := by
  cases h with
  | here => simp [follow_cons, hplace]
  | above =>
    have hne : Path.above ≠ Path.here := by decide
    simp [follow_cons, hplace, hne]
  | enter _ hhere habove hsize hentry hlink =>
    rw [follow_cons, hplace]
    simp only [hhere, habove, if_false, Nat.not_lt.mpr hsize, hentry]
    rfl
  | link links hhere habove hsize htarget =>
    rw [follow_cons, hplace]
    simp [hhere, habove, Nat.not_lt.mpr hsize, htarget]

/-- A name leads to one place, however many links are left. -/
theorem Advances.unique {links' left' : Nat} {next' before' : List Text}
    (h : Advances tree place links name left next before)
    (h' : Advances tree place links' name left' next' before') :
    next = next' ∧ before = before' := by
  cases h <;> cases h' <;> grind [Path.here, Path.above]

/-! ### All names -/

/-- Names lead from a place to another one, or to one where only the last name is missing. -/
inductive Resolves (tree : FileTree) :
    (links : Nat) → (place : List Text) → List Text → (List Text × Option Entry) → Prop
  | nil (links : Nat) (place : List Text) : Resolves tree links place [] (place, tree.get? place)
  | missing (links : Nat) {place : List Text} {name : Text}
      (hplace : tree.get? place = some .directory) (hhere : name ≠ Path.here)
      (habove : name ≠ Path.above) (hsize : Utf8.size name ≤ 255)
      (hmissing : tree.get? (place ++ [name]) = none) :
      Resolves tree links place [name] (place ++ [name], none)
  | step {links left : Nat} {place next before rest : List Text} {name : Text}
      {result : List Text × Option Entry} (hplace : tree.get? place = some .directory)
      (hname : Advances tree place links name left next before)
      (hrest : Resolves tree left next (before ++ rest) result) :
      Resolves tree links place (name :: rest) result

theorem Resolves.follow_eq {names : List Text} {result : List Text × Option Entry}
    (h : Resolves tree links place names result) :
    tree.follow true links place names = .ok result := by
  induction h with
  | nil => rw [follow_nil]
  | missing links hplace hhere habove hsize hmissing =>
    rw [follow_cons, hplace]
    simp [hhere, habove, Nat.not_lt.mpr hsize, hmissing]
  | step hplace hname _ ih => rw [hname.follow_eq hplace, ih]

/-- Following names gives a result exactly if the names resolve to it. -/
theorem follow_eq_ok_iff {names : List Text} {result : List Text × Option Entry} :
    tree.follow true links place names = .ok result ↔ Resolves tree links place names result := by
  refine ⟨fun h ↦ ?_, Resolves.follow_eq⟩
  -- A link leads on with fewer links to go, any other name with fewer names.
  induction links using Nat.strongRecOn generalizing place names with
  | ind links ihLinks =>
    induction names generalizing place with
    | nil =>
      rw [follow_nil] at h
      cases h
      exact .nil links place
    | cons name rest ih =>
      rw [follow_cons] at h
      split at h
      case h_2 | h_3 => cases h
      rename_i hplace
      split at h
      case isTrue hhere => exact hhere ▸ .step hplace (.here links) (ih h)
      rename_i hhere
      split at h
      case isTrue habove => exact habove ▸ .step hplace (.above links) (ih h)
      rename_i habove
      split at h
      case isTrue => cases h
      rename_i hsize
      have hsize := Nat.not_lt.mp hsize
      split at h
      · rename_i hmissing
        split at h
        · rename_i hrest
          cases h
          rw [List.isEmpty_iff.mp hrest]
          exact .missing links hplace hhere habove hsize hmissing
        · cases h
      · rename_i target htarget
        rw [Bool.not_true, Bool.and_false, if_neg Bool.false_ne_true] at h
        cases links with
        | zero => cases h
        | succ links =>
          exact .step hplace (.link links hhere habove hsize htarget)
            (ihLinks links (Nat.lt_succ_self links) h)
      · rename_i entry hlink hentry
        exact .step hplace (.enter links hhere habove hsize hentry hlink) (ih h)

namespace Resolves

variable {names : List Text} {result : List Text × Option Entry}

/-- What is found is what the place holds. -/
theorem snd_eq (h : Resolves tree links place names result) : result.2 = tree.get? result.1 := by
  induction h with
  | nil => rfl
  | missing _ _ _ _ _ hmissing => exact hmissing.symm
  | step _ _ _ ih => exact ih

/-- The number of links that may be followed does not matter to what is found. -/
theorem unique {links' : Nat} {result' : List Text × Option Entry}
    (h : Resolves tree links place names result) (h' : Resolves tree links' place names result') :
    result = result' := by
  induction h generalizing links' with
  | nil => cases h'; rfl
  | missing links hplace hhere habove hsize hmissing =>
    cases h' with
    | missing => rfl
    | step _ hname _ => cases hname <;> simp_all
  | step hplace hname _ ih =>
    cases h' with
    | missing _ _ _ _ _ hmissing => cases hname <;> simp_all
    | step _ hname' hrest' =>
      obtain ⟨rfl, rfl⟩ := hname.unique hname'
      exact ih hrest'

/-- The names before a name lead to a directory, and other names behind them are followed from
there. -/
theorem exists_append {as bs : List Text} {b : Text}
    (h : Resolves tree links place (as ++ b :: bs) result) :
    ∃ left q, tree.get? q = some .directory ∧ ∀ more,
      tree.follow true links place (as ++ more) = tree.follow true left q more := by
  generalize hnames : as ++ b :: bs = names at h
  induction h generalizing as with
  | nil => simp at hnames
  | missing links hplace =>
    obtain rfl : as = [] := by
      have := congrArg List.length hnames
      simp only [List.length_append, List.length_cons, List.length_nil] at this
      exact List.length_eq_zero_iff.mp (by omega)
    exact ⟨links, _, hplace, fun more ↦ rfl⟩
  | @step links left place next before rest name result hplace hname _ ih =>
    cases as with
    | nil => exact ⟨links, place, hplace, fun more ↦ rfl⟩
    | cons a as =>
      obtain ⟨rfl, rfl⟩ := List.cons.inj hnames
      obtain ⟨left', q, hq, hmore⟩ := ih (List.append_assoc before as (b :: bs))
      refine ⟨left', q, hq, fun more ↦ ?_⟩
      rw [List.cons_append, hname.follow_eq hplace, ← List.append_assoc, hmore]

/-- A last name is looked up where it stands, unless it is the name of a link. -/
theorem eq_or_link (hhere : name ≠ Path.here) (habove : name ≠ Path.above)
    (h : Resolves tree links place [name] result) :
    result = (place ++ [name], tree.get? (place ++ [name])) ∨
      ∃ left target, tree.get? (place ++ [name]) = some (.link target) ∧
        Resolves tree left (if Path.isAbsolute target then [] else place) (Path.names target)
          result := by
  cases h with
  | missing _ _ _ _ _ hmissing => exact .inl (by rw [hmissing])
  | step _ hname hrest =>
    cases hname with
    | here => exact absurd rfl hhere
    | above => exact absurd rfl habove
    | enter => cases hrest; exact .inl rfl
    | link _ _ _ _ htarget => exact .inr ⟨_, _, htarget, by simpa using hrest⟩

end Resolves

/-! ### Trees that differ in files -/

/-- A place that holds nothing or a file. -/
def IsLeaf (held : Option Entry) : Prop := ∀ entry, held = some entry → ∃ c x, entry = .file c x

/-- The trees hold the same everywhere, but for places where both hold nothing or a file. -/
def Agrees (tree other : FileTree) : Prop :=
  ∀ place, other.get? place = tree.get? place ∨
    IsLeaf (tree.get? place) ∧ IsLeaf (other.get? place)

@[simp] theorem agrees_refl (tree : FileTree) : tree.Agrees tree := fun _ ↦ .inl rfl

theorem Agrees.trans {third : FileTree} (h : tree.Agrees other) (h' : other.Agrees third) :
    tree.Agrees third := by
  intro place
  rcases h place with hsame | ⟨hleaf, hleaf'⟩
  · rcases h' place with hsame' | ⟨hleaf, hleaf'⟩
    · exact .inl (hsame'.trans hsame)
    · exact .inr ⟨hsame ▸ hleaf, hleaf'⟩
  · rcases h' place with hsame' | ⟨-, hleaf''⟩
    · exact .inr ⟨hleaf, hsame' ▸ hleaf'⟩
    · exact .inr ⟨hleaf, hleaf''⟩

/-- What is neither missing nor a file is the same in both trees. -/
theorem Agrees.get?_eq (h : tree.Agrees other) {entry : Entry}
    (hentry : tree.get? place = some entry) (hfile : ∀ c x, entry ≠ .file c x) :
    other.get? place = some entry := by
  rcases h place with hsame | ⟨hleaf, -⟩
  · exact hsame.trans hentry
  · obtain ⟨c, x, rfl⟩ := hleaf entry hentry
    exact absurd rfl (hfile c x)

theorem Agrees.symm (h : tree.Agrees other) : other.Agrees tree := fun place ↦
  (h place).imp Eq.symm And.symm

/-- A file that is written changes a tree in files only. -/
theorem agrees_put (h : IsLeaf (tree.get? place)) (content : Bytes) (executable : Bool) :
    tree.Agrees (tree.put place (.file content executable)) := by
  have hne : place ≠ [] := by
    rintro rfl
    obtain ⟨_, _, hroot⟩ := h .directory rfl
    cases hroot
  intro p
  by_cases hp : p = place
  · subst hp
    rw [get?_put_self tree _ hne]
    exact .inr ⟨h, fun entry hentry ↦ ⟨content, executable, (Option.some.inj hentry).symm⟩⟩
  · exact .inl (get?_put_of_ne tree _ hp)

/-- Names that lead to something lead there in a tree that agrees, unless it is gone. -/
theorem Resolves.agrees {names : List Text} {result : List Text × Option Entry}
    (hagrees : tree.Agrees other) (h : Resolves tree links place names result)
    (hfound : result.2.isSome) (hthere : (other.get? result.1).isSome) :
    Resolves other links place names (result.1, other.get? result.1) := by
  induction h with
  | nil links place => exact .nil links place
  | missing => cases hfound
  | @step links left place next before rest name result hplace hname hrest ih =>
    refine .step (hagrees.get?_eq hplace nofun) ?_ (ih hfound hthere)
    cases hname with
    | here => exact .here links
    | above => exact .above links
    | @enter _ _ entry hhere habove hsize hentry hlink =>
      suffices h : ∃ entry', other.get? (place ++ [name]) = some entry' ∧
          ∀ target, entry' ≠ .link target from
        h.elim fun entry' h ↦ .enter links hhere habove hsize h.1 h.2
      by_cases hfile : ∃ c x, entry = .file c x
      · obtain ⟨c, x, rfl⟩ := hfile
        -- Nothing can follow the name of a file, so the path ends here.
        have hlast : result.1 = place ++ [name] := by
          cases hrest with
          | nil => rfl
          | missing _ hdir => cases hentry.symm.trans hdir
          | step hdir => cases hentry.symm.trans hdir
        obtain ⟨entry', hentry'⟩ := Option.isSome_iff_exists.mp (hlast ▸ hthere)
        refine ⟨entry', hentry', ?_⟩
        rintro target rfl
        cases hentry.symm.trans (hagrees.symm.get?_eq hentry' nofun)
      · exact ⟨entry, hagrees.get?_eq hentry fun c x heq ↦ hfile ⟨c, x, heq⟩, hlink⟩
    | link _ hhere habove hsize htarget =>
      exact .link _ hhere habove hsize (hagrees.get?_eq htarget nofun)

/-! ### Paths -/

/-- A path that the system takes. -/
structure IsTaken (path : Text) : Prop where
  nul : '\x00' ∉ path
  ne_nil : path ≠ []
  size : Utf8.size path ≤ 4095

/-- Where a path is taken from. -/
def start (dir : List Text) (path : Text) : List Text := if Path.isAbsolute path then [] else dir

/-- A path leads somewhere exactly if the system takes it and its names resolve. -/
theorem locate_eq_ok_iff {dir : List Text} {path : Text} {result : List Text × Option Entry} :
    tree.locate dir path = .ok result ↔
      IsTaken path ∧ Resolves tree 40 (start dir path) (Path.names path) result := by
  rw [locate, locateWith, ← follow_eq_ok_iff, ← start]
  split
  · exact ⟨nofun, fun h ↦ absurd ‹_› h.1.nul⟩
  · split
    · exact ⟨nofun, fun h ↦ absurd (List.isEmpty_iff.mp ‹_›) h.1.ne_nil⟩
    · split
      · exact ⟨nofun, fun h ↦ absurd h.1.size (Nat.not_le.mpr ‹_›)⟩
      · have htaken : IsTaken path :=
          ⟨‹_›, fun hnil ↦ ‹¬path.isEmpty = true› (List.isEmpty_iff.mpr hnil), Nat.not_lt.mp ‹_›⟩
        exact ⟨fun h ↦ ⟨htaken, h⟩, And.right⟩

/-- Every link leads to a directory. -/
def LinksLead (tree : FileTree) : Prop :=
  ∀ place target, tree.get? place = some (.link target) →
    tree.isDirectory place.dropLast target = true

theorem isDirectory_eq_true_iff {dir : List Text} {path : Text} :
    tree.isDirectory dir path = true ↔
      ∃ place, tree.locate dir path = .ok (place, some .directory) := by
  unfold isDirectory
  split
  · rename_i place hlocate
    exact ⟨fun _ ↦ ⟨place, hlocate⟩, fun _ ↦ rfl⟩
  · rename_i hnone
    exact ⟨nofun, fun ⟨place, hlocate⟩ ↦ absurd hlocate (hnone place)⟩

/-- A path that leads to something leads there in a tree that agrees, unless it is gone. -/
theorem Agrees.locate_eq (hagrees : tree.Agrees other) {dir : List Text} {path : Text}
    {entry entry' : Entry} (h : tree.locate dir path = .ok (place, some entry))
    (hthere : other.get? place = some entry') :
    other.locate dir path = .ok (place, some entry') := by
  obtain ⟨htaken, hresolves⟩ := locate_eq_ok_iff.mp h
  have hagree := hresolves.agrees hagrees rfl (by rw [hthere]; rfl)
  rw [hthere] at hagree
  exact locate_eq_ok_iff.mpr ⟨htaken, hagree⟩

/-- A path that leads to a directory leads there in a tree that agrees. -/
theorem Agrees.locate_directory (hagrees : tree.Agrees other) {dir : List Text} {path : Text}
    (h : tree.locate dir path = .ok (place, some .directory)) :
    other.locate dir path = .ok (place, some .directory) := by
  have hplace : tree.get? place = some .directory := (locate_eq_ok_iff.mp h).2.snd_eq.symm
  exact hagrees.locate_eq h (hagrees.get?_eq hplace nofun)

theorem LinksLead.agrees (h : tree.LinksLead) (hagrees : tree.Agrees other) : other.LinksLead := by
  intro place target htarget
  obtain ⟨q, hq⟩ := isDirectory_eq_true_iff.mp
    (h place target (hagrees.symm.get?_eq htarget nofun))
  exact isDirectory_eq_true_iff.mpr ⟨q, hagrees.locate_directory hq⟩

/-- Where links lead to directories, a last name leads to one or is looked up where it stands. -/
theorem LinksLead.eq_of_resolves (hlinks : tree.LinksLead) {result : List Text × Option Entry}
    (hhere : name ≠ Path.here) (habove : name ≠ Path.above)
    (h : Resolves tree links place [name] result) (hne : result.2 ≠ some .directory) :
    result = (place ++ [name], tree.get? (place ++ [name])) := by
  obtain heq | ⟨left, target, htarget, hresolves⟩ := h.eq_or_link hhere habove
  · exact heq
  · obtain ⟨q, hq⟩ := isDirectory_eq_true_iff.mp (hlinks _ target htarget)
    rw [List.dropLast_concat] at hq
    cases hresolves.unique (locate_eq_ok_iff.mp hq).2
    exact absurd rfl hne

/-! ### Sound trees -/

/-- The place of the device that is always empty. -/
def devicePlace : List Text := ["dev".toList, "null".toList]

/-- A tree as a system keeps it: each place is listed once, under names that entries can have and in
a directory. A link leads to a directory, and there is no device but one. -/
structure IsSound (tree : FileTree) : Prop where
  nodup : (tree.entries.map Prod.fst).Nodup
  isName : ∀ held ∈ tree.entries, ∀ name ∈ held.1, Path.IsName name
  parent : ∀ held ∈ tree.entries, tree.get? held.1.dropLast = some .directory
  linksLead : tree.LinksLead
  device : ∀ held ∈ tree.entries, held.2 = .null → held.1 = devicePlace

/-- What a place other than the root holds is listed. -/
theorem mem_of_get? {entry : Entry} (h : tree.get? place = some entry) (hne : place ≠ []) :
    (place, entry) ∈ tree.entries := by
  rw [get?, if_neg (by simpa using hne)] at h
  obtain ⟨first, rest, heq, -⟩ := List.lookup_eq_some_iff.mp h
  rw [heq]
  simp

/-- A tree without links has none that leads elsewhere. -/
theorem linksLead_of_forall (h : ∀ held ∈ tree.entries, ∀ target, held.2 ≠ .link target) :
    tree.LinksLead := by
  intro place target htarget
  by_cases hne : place = []
  · rw [hne] at htarget
    cases htarget
  · exact absurd rfl (h _ (mem_of_get? htarget hne) target)

/-- The parent of a place is a directory. -/
theorem IsSound.get?_dropLast (h : tree.IsSound) {entry : Entry}
    (hentry : tree.get? place = some entry) : tree.get? place.dropLast = some .directory := by
  by_cases hne : place = []
  · rw [hne]
    rfl
  · exact h.parent _ (mem_of_get? hentry hne)

theorem IsSound.eq_devicePlace (h : tree.IsSound) (hentry : tree.get? place = some .null) :
    place = devicePlace := by
  by_cases hne : place = []
  · rw [hne] at hentry
    cases hentry
  · exact h.device _ (mem_of_get? hentry hne) rfl

/-! ### Siblings -/

theorem start_append_name {front name other : Text} (hfront : Path.IsLead front)
    (hname : Path.IsPart name) (hother : Path.IsPart other) (dir : List Text) :
    start dir (front ++ other) = start dir (front ++ name) := by
  have hpart {t : Text} (ht : Path.IsPart t) : Path.isAbsolute t = false := by
    obtain ⟨c, cs, rfl⟩ := List.exists_cons_of_ne_nil ht.ne_nil
    rw [Path.isAbsolute_cons]
    exact decide_eq_false fun hc ↦ ht.slash (hc ▸ List.mem_cons_self)
  have habsolute : Path.isAbsolute (front ++ other) = Path.isAbsolute (front ++ name) := by
    cases hfront with
    | nil => exact (hpart hother).trans (hpart hname).symm
    | slash before =>
      have hne : before ++ ['/'] ≠ [] := List.concat_ne_nil '/' before
      rw [Path.isAbsolute_append hne, Path.isAbsolute_append hne]
  rw [start, start, habsolute]

/-- A path that ends in no name leads to a directory. -/
theorem eq_directory_of_isLead {dir : List Text} {front : Text} {entry : Entry}
    (hfront : Path.IsLead front) (h : tree.locate dir front = .ok (place, some entry)) :
    entry = .directory := by
  obtain ⟨htaken, hresolves⟩ := locate_eq_ok_iff.mp h
  rw [Path.names_of_isLead hfront htaken.ne_nil] at hresolves
  obtain ⟨left, q, hq, hmore⟩ := hresolves.exists_append
  have hlast : Resolves tree left q [Path.here] (place, some entry) :=
    follow_eq_ok_iff.mp ((hmore [Path.here]).symm.trans hresolves.follow_eq)
  have hsame := congrArg Prod.snd (hlast.unique (.step hq (.here left) (.nil left q)))
  exact Option.some.inj (hsame.trans hq)

/-- The siblings of a file are where the file is. -/
theorem IsSound.locate_sibling (h : tree.IsSound) {dir : List Text} {front : Text} {entry : Entry}
    (hfront : Path.IsLead front) (hname : Path.IsPart name)
    (hlocate : tree.locate dir (front ++ name) = .ok (place, some entry))
    (hentry : entry ≠ .directory) :
    Path.IsName name ∧ ∃ q, place = q ++ [name] ∧ ∀ {other : Text} {result},
      Path.IsName other → tree.locate dir (front ++ other) = .ok result →
        result.2 ≠ some .directory → result = (q ++ [other], tree.get? (q ++ [other])) := by
  obtain ⟨-, hresolves⟩ := locate_eq_ok_iff.mp hlocate
  rw [Path.names_append_name hfront hname] at hresolves
  obtain ⟨left, q, hq, hmore⟩ := hresolves.exists_append
  have hlast : Resolves tree left q [name] (place, some entry) :=
    follow_eq_ok_iff.mp ((hmore [name]).symm.trans hresolves.follow_eq)
  -- A full stop, or two, would lead to a directory.
  have hhere : name ≠ Path.here := by
    rintro rfl
    have hsame := congrArg Prod.snd (hlast.unique (.step hq (.here left) (.nil left q)))
    exact hentry (Option.some.inj (hsame.trans hq))
  have habove : name ≠ Path.above := by
    rintro rfl
    have hsame := congrArg Prod.snd (hlast.unique (.step hq (.above left) (.nil left q.dropLast)))
    exact hentry (Option.some.inj (hsame.trans (h.get?_dropLast hq)))
  have hplace := h.linksLead.eq_of_resolves hhere habove hlast (by simpa using hentry)
  refine ⟨⟨hname, hhere, habove⟩, q, congrArg Prod.fst hplace, ?_⟩
  intro other result hother hfound hne
  have hresolves' := (locate_eq_ok_iff.mp hfound).2
  rw [Path.names_append_name hfront hother.toIsPart, start_append_name hfront hname hother.toIsPart]
    at hresolves'
  have hlast' : Resolves tree left q [other] result :=
    follow_eq_ok_iff.mp ((hmore [other]).symm.trans hresolves'.follow_eq)
  exact h.linksLead.eq_of_resolves hother.here hother.above hlast' hne

/-! ### Reading and writing -/

variable {dir : List Text} {path : Text} {content : Bytes} {after : FileTree}

/-- What is read from a path is the content of the file that it leads to; a device has none. -/
theorem read_eq_ok_iff : tree.read dir path = .ok content ↔
    (∃ place x, tree.locate dir path = .ok (place, some (.file content x))) ∨
      content = [] ∧ ∃ place, tree.locate dir path = .ok (place, some .null) := by
  unfold read
  cases hlocate : tree.locate dir path with
  | error fault => simp [bind, Except.bind]
  | ok result =>
    obtain ⟨place, _ | (_ | _ | _ | _)⟩ := result <;> simp [bind, Except.bind, eq_comm]

/-- A file that is written is put where its path leads, unless that is a device. -/
theorem write_eq_ok_iff : tree.write dir path content = .ok after ↔
    (∃ place x, after = tree.put place (.file content x) ∧
      (tree.locate dir path = .ok (place, none) ∧ x = false ∨
        ∃ c, tree.locate dir path = .ok (place, some (.file c x)))) ∨
      after = tree ∧ ∃ place, tree.locate dir path = .ok (place, some .null) := by
  unfold write
  cases hlocate : tree.locate dir path with
  | error fault => simp [bind, Except.bind]
  | ok result =>
    obtain ⟨place, _ | (_ | _ | _ | _)⟩ := result <;> simp [bind, Except.bind, eq_comm]

/-- Where a file is put there was one, or nothing. -/
theorem isLeaf_of_locate {place : List Text} {x : Bool}
    (h : tree.locate dir path = .ok (place, none) ∧ x = false ∨
      ∃ c, tree.locate dir path = .ok (place, some (.file c x))) : IsLeaf (tree.get? place) := by
  intro entry hentry
  obtain ⟨hlocate, -⟩ | ⟨c, hlocate⟩ := h
  · cases (locate_eq_ok_iff.mp hlocate).2.snd_eq.trans hentry
  · exact ⟨c, x, (Option.some.inj ((locate_eq_ok_iff.mp hlocate).2.snd_eq.trans hentry)).symm⟩

/-- Writing changes a tree in files only. -/
theorem agrees_write (h : tree.write dir path content = .ok after) : tree.Agrees after := by
  obtain ⟨place, x, rfl, hlocate⟩ | ⟨rfl, -⟩ := write_eq_ok_iff.mp h
  · exact agrees_put (isLeaf_of_locate hlocate) content x
  · exact agrees_refl _

end FileTree

end Weave
