import Mathlib.Data.Char
import Mathlib.Data.List.Lex
import Weave.Settings.Language

/-!
# Names and aliases of interpreters

A tag is looked for among the profiles in the order of their names, and a profile answers to its own
name and to its aliases alike. Nothing keeps an alias from being the name of another profile. Then
the tag goes to the profile that comes first, and so a profile is called by its own name exactly if
no profile before it has this name for an alias. If one does, the interpreter of this name is called
by one of its own aliases at best.

## Main definitions

* `Weave.Registry.IsSorted`: the names of a registry are in order, and all different.
* `Weave.Registry.HasAlias`: a tag is an alias of the profile under a name.

## Main results

* `Weave.Settings.isSorted_profiles`, `Weave.Settings.mem_names_profiles`: the profiles of a run.
* `Weave.Language.resolve_eq_interpreter_iff`: the profile that a tag goes to is the first that
  answers.
* `Weave.Language.resolve_name_iff`: which names reach their own profile, and where the others lead.
* `Weave.Language.resolve_taken`: a name that does not reach its own profile.
-/

namespace Weave

/-! ### The order of names -/

theorem Text.before_iff_lt {s t : Text} : before s t = true ↔ s < t := by
  induction s generalizing t with
  | nil =>
    cases t with
    | nil => simp [before]
    | cons b t => simp [before]
  | cons a s ih =>
    cases t with
    | nil => simp [before]
    | cons b t => simp [before, List.cons_lt_cons_iff, ih]

theorem Text.not_before_self (t : Text) : ¬before t t = true := by
  rw [before_iff_lt]
  exact lt_irrefl t

theorem Text.before_trans {s t u : Text} (hst : before s t = true) (htu : before t u = true) :
    before s u = true := by
  rw [before_iff_lt] at *
  exact hst.trans htu

theorem Text.before_or_before {s t : Text} (h : s ≠ t) : before s t = true ∨ before t s = true := by
  rw [before_iff_lt, before_iff_lt]
  exact lt_or_gt_of_ne h

namespace Registry

variable {α : Type} {r : Registry α} {entries : List (Text × α)} {name other : Text} {value : α}

/-- The names are in order, and so no name stands there twice. -/
def IsSorted (r : Registry α) : Prop :=
  r.names.Pairwise fun name other ↦ Text.before name other = true

theorem mem_names_insertEntry :
    other ∈ (insertEntry name value entries).map Prod.fst ↔
      other = name ∨ other ∈ entries.map Prod.fst := by
  induction entries with
  | nil => simp [insertEntry]
  | cons entry rest ih =>
    obtain ⟨n, v⟩ := entry
    rw [insertEntry]
    split
    · rename_i hn
      simp [hn]
    · split
      · simp
      · simp only [List.map_cons, List.mem_cons, ih]
        exact or_left_comm

theorem mem_names_insert : other ∈ (r.insert name value).names ↔ other = name ∨ other ∈ r.names :=
  mem_names_insertEntry

/-- A value is put in the place of its name. -/
theorem IsSorted.insert (h : r.IsSorted) (name : Text) (value : α) :
    (r.insert name value).IsSorted := by
  obtain ⟨entries⟩ := r
  unfold IsSorted names Registry.insert at *
  simp only [Text.before_iff_lt] at *
  induction entries with
  | nil => simp [insertEntry]
  | cons entry rest ih =>
    obtain ⟨n, v⟩ := entry
    rw [insertEntry]
    obtain ⟨hfirst, hrest⟩ := List.pairwise_cons.mp h
    split
    · rename_i hn
      rw [← hn]
      exact h
    rename_i hne
    split
    · rename_i hbefore
      have hlt := Text.before_iff_lt.mp hbefore
      exact List.pairwise_cons.mpr ⟨List.forall_mem_cons.mpr
        ⟨hlt, fun other hother ↦ hlt.trans (hfirst other hother)⟩, h⟩
    · rename_i hbefore
      have hlt : n < name := lt_of_le_of_ne (le_of_not_gt (mt Text.before_iff_lt.mpr hbefore)) hne
      refine List.pairwise_cons.mpr ⟨fun other hother ↦ ?_, ih hrest⟩
      rcases mem_names_insertEntry.mp hother with rfl | hother
      · exact hlt
      · exact hfirst other hother

theorem IsSorted.overlay (h : r.IsSorted) (s : Registry α) : (r.overlay s).IsSorted := by
  obtain ⟨entries⟩ := s
  unfold Registry.overlay
  induction entries generalizing r with
  | nil => exact h
  | cons entry rest ih => exact ih (h.insert entry.1 entry.2)

theorem mem_names_overlay {s : Registry α} :
    name ∈ (r.overlay s).names ↔ name ∈ r.names ∨ name ∈ s.names := by
  obtain ⟨entries⟩ := s
  unfold Registry.overlay
  induction entries generalizing r with
  | nil => simp [names]
  | cons entry rest ih =>
    rw [List.foldl_cons, ih, mem_names_insert]
    simp only [names, List.map_cons, List.mem_cons]
    tauto

/-- Of the entries that satisfy a predicate, the one with the first name is found. -/
theorem IsSorted.find?_eq_some_iff (h : r.IsSorted) {p : Text × α → Bool} {entry : Text × α} :
    r.entries.find? p = some entry ↔ entry ∈ r.entries ∧ p entry = true ∧
      ∀ other ∈ r.entries, Text.before other.1 entry.1 = true → p other = false := by
  have hsorted := List.pairwise_map.mp h
  simp only [Text.before_iff_lt] at hsorted ⊢
  rw [List.find?_eq_some_iff_append]
  constructor
  · rintro ⟨hentry, front, back, hentries, hfront⟩
    rw [hentries] at hsorted ⊢
    refine ⟨by simp, hentry, fun other hother hlt ↦ ?_⟩
    rcases List.mem_append.mp hother with hother | hother
    · simpa using hfront other hother
    · obtain ⟨hback, -⟩ := List.pairwise_cons.mp (List.pairwise_append.mp hsorted).2.1
      rcases List.mem_cons.mp hother with rfl | hother
      · exact absurd hlt (lt_irrefl _)
      · exact absurd (hlt.trans (hback other hother)) (lt_irrefl _)
  · rintro ⟨hmem, hentry, hbefore⟩
    obtain ⟨front, back, hentries⟩ := List.append_of_mem hmem
    rw [hentries] at hsorted hbefore
    refine ⟨hentry, front, back, hentries, fun other hother ↦ ?_⟩
    have hlt := (List.pairwise_append.mp hsorted).2.2 other hother entry List.mem_cons_self
    simp [hbefore other (List.mem_append_left _ hother) hlt]

/-- A tag is an alias of the profile under a name. -/
def HasAlias (profiles : Registry Profile) (name tag : Text) : Prop :=
  ∃ profile, (name, profile) ∈ profiles.entries ∧ tag ∈ profile.aliases

end Registry

/-! ### The profiles of a run -/

namespace Settings

/-- The profiles of a run are in order, whatever has been configured. -/
theorem isSorted_profiles (settings : Settings) : settings.profiles.IsSorted := by
  have hbuiltin : (Registry.ofList [(Profile.builtinName, Profile.builtin)]).IsSorted :=
    List.pairwise_singleton _ _
  exact hbuiltin.overlay settings.interpreters

/-- There is a profile under the name of the built-in one and under each name that has been
configured. -/
theorem mem_names_profiles {settings : Settings} {name : Text} :
    name ∈ settings.profiles.names ↔
      name = Profile.builtinName ∨ name ∈ settings.interpreters.names := by
  rw [profiles, Registry.mem_names_overlay]
  exact or_congr_left List.mem_singleton

end Settings

namespace Language

variable {profiles : Registry Profile} {name tag : Text}

/-- The profile under a name answers to a tag. -/
def Answers (profiles : Registry Profile) (name tag : Text) : Prop :=
  ∃ profile, (name, profile) ∈ profiles.entries ∧ profile.answersTo name tag = true

theorem answers_iff :
    Answers profiles name tag ↔
      name ∈ profiles.names ∧ name = tag ∨ profiles.HasAlias name tag := by
  simp only [Answers, Profile.answersTo, Bool.or_eq_true, decide_eq_true_eq,
    List.contains_eq_mem, Registry.HasAlias, Registry.names, List.mem_map, and_or_left, exists_or]
  refine or_congr_left ⟨?_, ?_⟩
  · rintro ⟨profile, hmem, htag⟩
    exact ⟨⟨(name, profile), hmem, rfl⟩, htag⟩
  · rintro ⟨⟨⟨_, profile⟩, hmem, rfl⟩, htag⟩
    exact ⟨profile, hmem, htag⟩

/-- A tag goes to the first profile that answers to it. -/
theorem resolve_eq_interpreter_iff (h : profiles.IsSorted) :
    resolve profiles tag = interpreter name ↔ Answers profiles name tag ∧
      ∀ other, Text.before other name = true → ¬Answers profiles other tag := by
  have hfind : resolve profiles tag = interpreter name ↔ ∃ profile,
      profiles.entries.find? (fun entry ↦ entry.2.answersTo entry.1 tag) =
        some (name, profile) := by
    rw [resolve]
    split
    · rename_i first profile hfound
      have hfirst : profiles.entries.find? (fun entry ↦ entry.2.answersTo entry.1 tag) =
          some (first, profile) := hfound
      simp [hfirst]
    · rename_i hfound
      have hnone : profiles.entries.find? (fun entry ↦ entry.2.answersTo entry.1 tag) = none :=
        hfound
      rw [hnone]
      split <;> simp
  simp only [hfind, h.find?_eq_some_iff, Answers, Prod.forall]
  constructor
  · rintro ⟨profile, hmem, hanswers, hnone⟩
    refine ⟨⟨profile, hmem, hanswers⟩, ?_⟩
    rintro other hbefore ⟨rival, hrival, hyes⟩
    rw [hnone other rival hrival hbefore] at hyes
    cases hyes
  · rintro ⟨⟨profile, hmem, hanswers⟩, hnone⟩
    refine ⟨profile, hmem, hanswers, fun other rival hrival hbefore ↦ ?_⟩
    exact Bool.eq_false_iff.mpr fun hyes ↦ hnone other hbefore ⟨rival, hrival, hyes⟩

/-- A tag to which some profile answers goes to an interpreter. -/
theorem exists_resolve_of_answers (h : Answers profiles name tag) :
    ∃ first, resolve profiles tag = interpreter first := by
  obtain ⟨profile, hmem, hanswers⟩ := h
  rw [resolve]
  split
  · exact ⟨_, rfl⟩
  · rename_i hnone
    exact absurd hanswers (List.find?_eq_none.mp hnone (name, profile) hmem)

/-- **Names.** The profiles of a run stand in the order of their names, the built-in one among them.
The name of a profile goes to an interpreter in any case. It goes to the interpreter of this name
exactly if it is no alias of a profile before; otherwise it goes to the first profile of which it is
an alias. -/
theorem resolve_name_iff (settings : Settings) :
    settings.profiles.IsSorted ∧
    (∀ name, name ∈ settings.profiles.names ↔
      name = Profile.builtinName ∨ name ∈ settings.interpreters.names) ∧
    ∀ name ∈ settings.profiles.names,
      (∃ first, resolve settings.profiles name = interpreter first) ∧
      (resolve settings.profiles name = interpreter name ↔
        ∀ other, Text.before other name = true → ¬settings.profiles.HasAlias other name) ∧
      ∀ first, first ≠ name → (resolve settings.profiles name = interpreter first ↔
        Text.before first name = true ∧ settings.profiles.HasAlias first name ∧
          ∀ other, Text.before other first = true → ¬settings.profiles.HasAlias other name) := by
  have hsorted := settings.isSorted_profiles
  refine ⟨hsorted, fun name ↦ Settings.mem_names_profiles, fun name hname ↦ ?_⟩
  have hself : Answers settings.profiles name name := answers_iff.mpr (.inl ⟨hname, rfl⟩)
  have hrival : ∀ {other}, other ≠ name →
      (Answers settings.profiles other name ↔ settings.profiles.HasAlias other name) := by
    intro other hne
    simp [answers_iff, hne]
  have hne : ∀ {other}, Text.before other name = true → other ≠ name := by
    rintro other hbefore rfl
    exact Text.not_before_self _ hbefore
  refine ⟨exists_resolve_of_answers hself, ?_, fun first hfirst ↦ ?_⟩
  · rw [resolve_eq_interpreter_iff hsorted, and_iff_right hself]
    exact forall₂_congr fun other hbefore ↦ not_congr (hrival (hne hbefore))
  · rw [resolve_eq_interpreter_iff hsorted, hrival hfirst]
    constructor
    · rintro ⟨halias, hnone⟩
      -- If the name came first, it would have gone to its own profile.
      have hbefore := (Text.before_or_before hfirst).resolve_right fun h ↦ hnone name h hself
      refine ⟨hbefore, halias, fun other hother ↦ ?_⟩
      exact mt (hrival (hne (Text.before_trans hother hbefore))).mpr (hnone other hother)
    · rintro ⟨hbefore, halias, hnone⟩
      refine ⟨halias, fun other hother ↦ ?_⟩
      exact mt (hrival (hne (Text.before_trans hother hbefore))).mp (hnone other hother)

/-- An interpreter that takes the name of another one for an alias. -/
def crossed : Settings where
  interpreters := Registry.ofList
    [("a".toList, { command := "cat".toList, echo := Profile.sentinelPlaceholder
                    aliases := ["b".toList] }),
      ("b".toList, { command := "cat".toList, echo := Profile.sentinelPlaceholder })]

/-- The second interpreter is not reached by its name. -/
theorem resolve_taken : "b".toList ∈ crossed.profiles.names ∧
    resolve crossed.profiles "b".toList = interpreter "a".toList := by decide

end Language

end Weave
