import Weave.Files.Path

/-!
# Siblings

A path that ends in a name is that name behind a text that leads to it: nothing, or a text with a
slash at its end. Another name behind the same text is the path of a sibling, and giving a path
another extension makes the path of a sibling of it.

## Main definitions

* `Weave.Path.parts`: the names of a path without the full stop for a slash at its end.
* `Weave.Path.IsLead`: what can stand before the last name of a path.
* `Weave.Path.renamed`: a name with another extension.

## Main results

* `Weave.Path.names_append_name`: the names of a path that ends in a name.
* `Weave.Path.withExtension_append_name`: another extension makes a sibling.
* `Weave.Path.renamed_eq_self_iff`: when it is the path itself.
* `Weave.Path.join_joinWith`: a file below a directory as a text that leads to it and a name.
-/

namespace Weave

namespace Path

/-! ### Names -/

/-- The names of a path in order, without the full stop that stands for a slash at its end. -/
def parts (path : Text) : List Text :=
  (Text.splitWhere (· = '/') path).filter fun part ↦ !part.isEmpty

@[simp] theorem parts_nil : parts [] = [] := rfl

/-- A text that can stand in a path as a name. -/
structure IsPart (name : Text) : Prop where
  ne_nil : name ≠ []
  slash : '/' ∉ name

/-- A name that an entry of a directory can have. -/
structure IsName (name : Text) : Prop extends IsPart name where
  here : name ≠ here
  above : name ≠ above

instance (name : Text) : Decidable (IsName name) :=
  decidable_of_iff ((name ≠ [] ∧ '/' ∉ name) ∧ name ≠ Path.here ∧ name ≠ Path.above)
    ⟨fun h ↦ ⟨⟨h.1.1, h.1.2⟩, h.2.1, h.2.2⟩, fun h ↦ ⟨⟨h.ne_nil, h.slash⟩, h.here, h.above⟩⟩

theorem parts_append_slash (s t : Text) : parts (s ++ '/' :: t) = parts s ++ parts t := by
  rw [parts, Text.splitWhere_append_cons (by simp), List.filter_append]
  rfl

theorem IsPart.parts_eq {name : Text} (h : IsPart name) : parts name = [name] := by
  have hnone : ∀ c ∈ name, decide (c = '/') = false :=
    fun c hc ↦ decide_eq_false fun heq ↦ h.slash (heq ▸ hc)
  rw [parts, Text.splitWhere_eq_singleton hnone]
  simp [h.ne_nil]

/-- What can stand before the last name of a path: nothing, or a text with a slash at its end. -/
inductive IsLead : Text → Prop
  | nil : IsLead []
  | slash (before : Text) : IsLead (before ++ ['/'])

variable {front name : Text}

theorem IsLead.parts_append (hfront : IsLead front) (rest : Text) :
    parts (front ++ rest) = parts front ++ parts rest := by
  cases hfront with
  | nil => rfl
  | slash before =>
    rw [List.append_assoc, List.singleton_append, parts_append_slash, parts_append_slash,
      parts_nil, List.append_nil]

/-- Every path is a text without slashes behind a text that leads to it. -/
theorem exists_lead_append (path : Text) :
    ∃ front name, path = front ++ name ∧ IsLead front ∧ '/' ∉ name := by
  induction path with
  | nil => exact ⟨[], [], rfl, .nil, List.not_mem_nil⟩
  | cons c cs ih =>
    obtain ⟨front, name, rfl, hfront, hname⟩ := ih
    cases hfront with
    | nil =>
      by_cases hc : c = '/'
      · exact ⟨['/'], name, by rw [hc]; rfl, .slash [], hname⟩
      · exact ⟨[], c :: name, rfl, .nil, by simp [Ne.symm hc, hname]⟩
    | slash before => exact ⟨c :: (before ++ ['/']), name, rfl, .slash (c :: before), hname⟩

theorem getLast?_append_name (hname : IsPart name) (front : Text) :
    (front ++ name).getLast? ≠ some '/' := by
  intro hlast
  obtain ⟨c, hc⟩ := Option.isSome_iff_exists.mp (List.getLast?_isSome.mpr hname.ne_nil)
  rw [List.getLast?_append, hc, Option.some_or, Option.some.injEq] at hlast
  exact hname.slash (hlast ▸ List.mem_of_getLast? hc)

/-- The names of a path are its parts, and a full stop if it ends with a slash. -/
theorem names_eq (path : Text) :
    names path = parts path ++ if path.getLast? = some '/' then [here] else [] := by
  unfold names
  by_cases hlast : path.getLast? = some '/'
  · rw [hlast, if_pos rfl]
    rfl
  · rw [if_neg hlast, List.append_nil]
    split
    · exact absurd ‹_› hlast
    · rfl

/-- The names of a path that ends in a name. -/
theorem names_append_name (hfront : IsLead front) (hname : IsPart name) :
    names (front ++ name) = parts front ++ [name] := by
  rw [names_eq, if_neg (getLast?_append_name hname front), List.append_nil, hfront.parts_append,
    hname.parts_eq]

/-- The names of a path that ends in no name end in the directory itself, unless it is empty. -/
theorem names_of_isLead (hfront : IsLead front) (hne : front ≠ []) :
    names front = parts front ++ [here] := by
  cases hfront with
  | nil => exact absurd rfl hne
  | slash before => simp [names_eq]

/-! ### Extensions -/

/-- The name of an entry is the file name of the path that it ends. -/
theorem fileName?_append_name (hfront : IsLead front) (hname : IsName name) :
    fileName? (front ++ name) = some name := by
  have hproper : properNames (front ++ name) =
      (parts front).filter (· ≠ here) ++ [name] := by
    rw [properNames, names_append_name hfront hname.toIsPart, List.filter_append]
    simp [hname.here]
  rw [fileName?, hproper, List.getLast?_concat]
  simp [hname.above]

/-- A text that can stand as an extension. -/
structure IsExtension (extension : Text) : Prop extends IsPart extension where
  dot : '.' ∉ extension

/-- A name with another extension. -/
def renamed (name extension : Text) : Text := (splitName name).1 ++ '.' :: extension

/-- Another extension makes the path of a sibling. -/
theorem withExtension_append_name (hfront : IsLead front) (hname : IsName name)
    (extension : Text) :
    withExtension (front ++ name) extension = front ++ renamed name extension := by
  rw [withExtension, fileName?_append_name hfront hname]
  simp [renamed]

/-- A name that is parted is a stem that is not empty, a full stop, and an extension without full
stops. -/
theorem splitName_eq_some_iff {stem extension : Text} :
    splitName name = (stem, some extension) ↔
      name = stem ++ '.' :: extension ∧ stem ≠ [] ∧ '.' ∉ extension := by
  unfold splitName
  cases hsplit : Text.splitOnce? (· = '.') name.reverse with
  | none =>
    have hnone : ∀ c ∈ name, c ≠ '.' := by simpa using Text.splitOnce?_eq_none_iff.mp hsplit
    constructor
    · nofun
    · rintro ⟨rfl, -, -⟩
      exact absurd rfl (hnone '.' (by simp))
  | some found =>
    obtain ⟨last, first⟩ := found
    obtain ⟨c, hc, hname, hlast⟩ := Text.splitOnce?_eq_some_iff.mp hsplit
    obtain rfl : c = '.' := by simpa using hc
    have hlast : '.' ∉ last := fun hmem ↦ absurd (hlast _ hmem) (by simp)
    have heq : name = first.reverse ++ '.' :: last.reverse := by
      rw [← List.reverse_reverse name, hname]
      simp
    -- There is one last full stop, so that the two ways to part the name are one.
    have hunique (hstem : name = stem ++ '.' :: extension) (hext : '.' ∉ extension) :
        last.reverse = extension ∧ first.reverse = stem := by
      have hother : Text.splitOnce? (· = '.') name.reverse =
          some (extension.reverse, stem.reverse) :=
        Text.splitOnce?_eq_some_iff.mpr ⟨'.', by simp, by simp [hstem], fun d hd ↦
          decide_eq_false fun hdot ↦ hext (by simpa [hdot] using hd)⟩
      rw [hsplit, Option.some.injEq, Prod.mk.injEq] at hother
      rw [hother.1, hother.2, List.reverse_reverse, List.reverse_reverse]
      exact ⟨rfl, rfl⟩
    cases first with
    | nil =>
      constructor
      · nofun
      · rintro ⟨hstem, hne, hext⟩
        exact absurd (hunique hstem hext).2.symm hne
    | cons d ds =>
      simp only [Prod.mk.injEq, Option.some.injEq]
      constructor
      · rintro ⟨rfl, rfl⟩
        exact ⟨heq, by simp, by simpa using hlast⟩
      · rintro ⟨hstem, -, hext⟩
        exact ⟨(hunique hstem hext).2, (hunique hstem hext).1⟩

/-- A name with an extension ends in it. -/
theorem eq_append_of_splitName_snd {extension : Text} (h : (splitName name).2 = some extension) :
    name = (splitName name).1 ++ '.' :: extension :=
  (splitName_eq_some_iff.mp (Prod.ext rfl h)).1

theorem splitName_eq_of_snd_eq_none (h : (splitName name).2 = none) :
    (splitName name).1 = name := by
  unfold splitName at h ⊢
  split at h
  · rfl
  · rfl
  · cases h

theorem splitName_fst_ne_nil (hname : name ≠ []) : (splitName name).1 ≠ [] := by
  cases hext : (splitName name).2 with
  | none => rwa [splitName_eq_of_snd_eq_none hext]
  | some extension => exact (splitName_eq_some_iff.mp (Prod.ext rfl hext)).2.1

/-- A name that has been given an extension has it. -/
theorem splitName_renamed {extension : Text} (hname : name ≠ []) (hext : IsExtension extension) :
    splitName (renamed name extension) = ((splitName name).1, some extension) :=
  splitName_eq_some_iff.mpr ⟨rfl, splitName_fst_ne_nil hname, hext.dot⟩

/-- A name does not change if it is given the extension that it has, and only then. -/
theorem renamed_eq_self_iff {extension : Text} (hname : name ≠ []) (hext : IsExtension extension) :
    renamed name extension = name ↔ (splitName name).2 = some extension := by
  constructor
  · intro heq
    rw [← heq, splitName_renamed hname hext]
  · intro heq
    exact (eq_append_of_splitName_snd heq).symm

/-- A name with another extension is a name. -/
theorem IsName.renamed (h : IsName name) {extension : Text} (hext : IsExtension extension) :
    IsName (renamed name extension) := by
  have hsplit := splitName_renamed h.ne_nil hext
  refine ⟨⟨by simp [Path.renamed], fun hmem ↦ ?_⟩, fun heq ↦ ?_, fun heq ↦ ?_⟩
  · rcases List.mem_append.mp hmem with hmem | hmem
    · cases hfound : (splitName name).2 with
      | none => exact h.slash (splitName_eq_of_snd_eq_none hfound ▸ hmem)
      | some found =>
        refine h.slash ?_
        rw [eq_append_of_splitName_snd hfound]
        exact List.mem_append_left _ hmem
    · rcases List.mem_cons.mp hmem with hdot | hmem
      · cases hdot
      · exact hext.slash hmem
  · rw [heq] at hsplit
    cases congrArg Prod.snd hsplit
  · rw [heq] at hsplit
    exact hext.ne_nil (Option.some.inj (congrArg Prod.snd hsplit)).symm

/-! ### Files below a directory -/

theorem isLead_lead (dir : Text) : IsLead (lead dir) := by
  unfold lead
  split
  · rename_i hlast
    cases hdir : dir.getLast? with
    | none => exact List.getLast?_eq_none_iff.mp hdir ▸ .nil
    | some c =>
      obtain rfl : c = '/' := by simpa [hdir] using hlast
      obtain ⟨before, rfl⟩ := List.getLast?_eq_some_iff.mp hdir
      exact .slash before
  · exact .slash dir

@[simp] theorem parts_lead (dir : Text) : parts (lead dir) = parts dir := by
  unfold lead
  split
  · rfl
  · rw [parts_append_slash, parts_nil, List.append_nil]

/-- What stands before the last name in the path of a file below a directory. -/
def leadTo (dir : Text) (inner : List Text) : Text := lead dir ++ inner.flatMap (· ++ ['/'])

theorem isLead_leadTo (dir : Text) (inner : List Text) : IsLead (leadTo dir inner) := by
  unfold leadTo
  rcases inner.eq_nil_or_concat with rfl | ⟨front, last, rfl⟩
  · simpa using isLead_lead dir
  · rw [List.concat_eq_append, List.flatMap_append, List.flatMap_singleton, ← List.append_assoc,
      ← List.append_assoc]
    exact .slash _

theorem parts_leadTo (dir : Text) {inner : List Text} (h : ∀ name ∈ inner, IsPart name) :
    parts (leadTo dir inner) = parts dir ++ inner := by
  have hinner : parts (inner.flatMap (· ++ ['/'])) = inner := by
    induction inner with
    | nil => rfl
    | cons name rest ih =>
      obtain ⟨hname, hrest⟩ := List.forall_mem_cons.mp h
      rw [List.flatMap_cons, (IsLead.slash name).parts_append, ih hrest, parts_append_slash,
        hname.parts_eq, parts_nil]
      rfl
  rw [leadTo, (isLead_lead dir).parts_append, parts_lead, hinner]

/-- The path of a file below a directory. -/
theorem join_joinWith (dir : Text) {inner : List Text} {last : Text}
    (h : ∀ name ∈ inner ++ [last], IsPart name) :
    join dir (Text.joinWith ['/'] (inner ++ [last])) = leadTo dir inner ++ last := by
  have habsolute : isAbsolute (Text.joinWith ['/'] (inner ++ [last])) = false := by
    obtain ⟨first, rest, hfirst⟩ : ∃ first rest, inner ++ [last] = first :: rest :=
      List.exists_cons_of_ne_nil (by simp)
    have hpart := h first (hfirst ▸ List.mem_cons_self)
    obtain ⟨c, cs, rfl⟩ := List.exists_cons_of_ne_nil hpart.ne_nil
    have hc : c ≠ '/' := fun hc ↦ hpart.slash (hc ▸ List.mem_cons_self)
    rw [hfirst]
    cases rest <;> simp [Text.joinWith, isAbsolute_cons, hc]
  rw [join_of_not_isAbsolute habsolute, Text.joinWith_append_singleton, leadTo, List.append_assoc]

end Path

end Weave
