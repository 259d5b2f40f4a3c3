import Mathlib.Data.List.Basic
import Mathlib.Data.List.Induction
import Weave.Document.Include

/-!
# Option lists of directives

The options of a directive stand between commas. Each part is blank, or it is a key and a value with
an equals sign or a colon between them, of which the first one counts: the value is all that follows
it, blanks and further signs included. If any part is neither, the list is refused as a whole. Of
several values of one key the last is taken.

## Main definitions

* `Weave.Include.Gives`, `Weave.Include.LastGives`: the value that a part gives a key, and the one
  that a list of parts gives it.
* `Weave.Include.IsPart`, `Weave.Include.IsList`: the parts that a list may have, and their list.

## Main results

* `Weave.Include.add?_cases`, `Weave.Include.lastGives_of_foldlM`: what one part does, and what all
  of them do.
* `Weave.Include.Options.parse_parts`: which lists are read, and what they say.
-/

namespace Weave.Include

/-! ### Keys and parts -/

/-- A key of an option list. -/
inductive Key where
  | ini
  | fin
  deriving DecidableEq

/-- The name of a key. -/
def Key.name : Key → Text
  | ini => "ini".toList
  | fin => "end".toList

namespace Options

/-- The marker under a key. -/
def get (options : Options) : Key → Option Text
  | .ini => options.ini
  | .fin => options.fin

/-- The options with a marker put under a key. -/
def set (options : Options) (value : Text) : Key → Options
  | .ini => { options with ini := some value }
  | .fin => { options with fin := some value }

theorem get_set_self (options : Options) (value : Text) (key : Key) :
    (options.set value key).get key = some value := by
  cases key <;> rfl

theorem get_set_of_ne (options : Options) (value : Text) {key other : Key} (h : other ≠ key) :
    (options.set value key).get other = options.get other := by
  cases key <;> cases other <;> first | rfl | exact absurd rfl h

end Options

/-- A part that gives a key its value: the name of the key, with blanks around it, and the value
behind the first equals sign or colon. -/
def Gives (part : Text) (key : Key) (value : Text) : Prop :=
  ∃ front c, part = front ++ c :: value ∧ isKeyEnd c = true ∧ (∀ d ∈ front, isKeyEnd d = false) ∧
    Text.trim front = key.name

/-- A part that an option list may have. -/
def IsPart (part : Text) : Prop :=
  Text.allBlank part = true ∨ ∃ key value, Gives part key value

variable {part value : Text} {key : Key} {parts : List Text} {options later : Options}

theorem gives_iff : Gives part key value ↔
    ∃ front, Text.splitOnce? isKeyEnd part = some (front, value) ∧ Text.trim front = key.name := by
  simp only [Text.splitOnce?_eq_some_iff, Gives]
  constructor
  · rintro ⟨front, c, hpart, hc, hfront, hname⟩
    exact ⟨front, ⟨c, hc, hpart, hfront⟩, hname⟩
  · rintro ⟨front, ⟨c, hc, hpart, hfront⟩, hname⟩
    exact ⟨front, c, hpart, hc, hfront, hname⟩

/-- A part gives one value to one key. -/
theorem Gives.unique {key' : Key} {value' : Text} (h : Gives part key value)
    (h' : Gives part key' value') : key' = key ∧ value' = value := by
  obtain ⟨front, hsplit, hname⟩ := gives_iff.mp h
  obtain ⟨front', hsplit', hname'⟩ := gives_iff.mp h'
  obtain ⟨rfl, rfl⟩ := Prod.mk.inj (Option.some.inj (hsplit.symm.trans hsplit'))
  refine ⟨?_, rfl⟩
  rw [hname] at hname'
  cases key <;> cases key' <;> first | rfl | simp [Key.name] at hname'

theorem isBlank_eq_false_of_isKeyEnd {c : Char} (h : isKeyEnd c = true) :
    Text.isBlank c = false := by
  simp only [isKeyEnd, Bool.or_eq_true, decide_eq_true_eq] at h
  rcases h with rfl | rfl <;> rfl

theorem Gives.allBlank_eq_false (h : Gives part key value) : Text.allBlank part = false := by
  obtain ⟨front, c, rfl, hc, -, -⟩ := h
  simp [Text.allBlank, isBlank_eq_false_of_isKeyEnd hc]

theorem add?_of_gives (h : Gives part key value) (options : Options) :
    options.add? part = some (options.set value key) := by
  have hblank := h.allBlank_eq_false
  obtain ⟨front, hsplit, hname⟩ := gives_iff.mp h
  simp only [Options.add?, hblank, hsplit, hname]
  cases key <;> rfl

/-- A part is passed over, gives a key its value, or makes the list fail. -/
theorem add?_cases (options : Options) (part : Text) :
    (Text.allBlank part = true ∧ options.add? part = some options) ∨
      (∃ key value, Gives part key value ∧ options.add? part = some (options.set value key)) ∨
      (¬IsPart part ∧ options.add? part = none) := by
  by_cases hblank : Text.allBlank part = true
  · exact .inl ⟨hblank, if_pos hblank⟩
  by_cases hgives : ∃ key value, Gives part key value
  · obtain ⟨key, value, h⟩ := hgives
    exact .inr (.inl ⟨key, value, h, add?_of_gives h options⟩)
  · refine .inr (.inr ⟨not_or.mpr ⟨hblank, hgives⟩, ?_⟩)
    rw [Options.add?, if_neg hblank]
    split
    · rfl
    rename_i front value hsplit
    split
    · exact absurd ⟨.ini, value, gives_iff.mpr ⟨front, hsplit, ‹_›⟩⟩ hgives
    split
    · exact absurd ⟨.fin, value, gives_iff.mpr ⟨front, hsplit, ‹_›⟩⟩ hgives
    · rfl

/-! ### Lists of parts -/

/-- The value that the last part with a key gives it; none if no part does. -/
inductive LastGives (key : Key) : List Text → Option Text → Prop
  | absent {parts : List Text} (h : ∀ part ∈ parts, ∀ value, ¬Gives part key value) :
      LastGives key parts none
  | given {front back : List Text} {part value : Text} (hpart : Gives part key value)
      (hback : ∀ later ∈ back, ∀ other, ¬Gives later key other) :
      LastGives key (front ++ part :: back) (some value)

/-- The last part gives the value, or the value is that of the parts before. -/
theorem lastGives_concat_iff {last : Option Text} :
    LastGives key (parts ++ [part]) last ↔ (∃ value, Gives part key value ∧ last = some value) ∨
      (∀ value, ¬Gives part key value) ∧ LastGives key parts last := by
  constructor
  · generalize hwhole : parts ++ [part] = whole
    rintro (h | @⟨front, back, found, value, hfound, hback⟩)
    · rw [← hwhole] at h
      exact .inr ⟨h part (by simp), .absent fun earlier hmem ↦ h earlier (by simp [hmem])⟩
    · obtain rfl | ⟨rest, final, rfl⟩ := List.eq_nil_or_concat' back
      · obtain ⟨-, heq⟩ := List.append_inj' hwhole rfl
        obtain rfl := List.singleton_inj.mp heq
        exact .inl ⟨value, hfound, rfl⟩
      · rw [← List.cons_append, ← List.append_assoc] at hwhole
        obtain ⟨rfl, heq⟩ := List.append_inj' hwhole rfl
        obtain rfl := List.singleton_inj.mp heq
        exact .inr ⟨hback part (by simp),
          .given hfound fun later hmem ↦ hback later (by simp [hmem])⟩
  · rintro (⟨value, hvalue, rfl⟩ | ⟨hnone, h | @⟨front, back, found, value, hfound, hback⟩⟩)
    · exact .given hvalue (by simp)
    · refine .absent fun earlier hmem ↦ ?_
      rcases List.mem_append.mp hmem with hmem | hmem
      · exact h earlier hmem
      · rwa [List.mem_singleton.mp hmem]
    · rw [List.append_assoc, List.cons_append]
      refine .given hfound fun later hmem ↦ ?_
      rcases List.mem_append.mp hmem with hmem | hmem
      · exact hback later hmem
      · rwa [List.mem_singleton.mp hmem]

theorem foldlM_concat (options : Options) (parts : List Text) (part : Text) :
    (parts ++ [part]).foldlM Options.add? options =
      (parts.foldlM Options.add? options).bind (Options.add? · part) := by
  rw [List.foldlM_append]
  congr 1
  funext before
  exact bind_pure _

theorem lastGives_nil_iff {last : Option Text} : LastGives key [] last ↔ last = none := by
  constructor
  · generalize hnil : ([] : List Text) = parts
    rintro (h | h)
    · rfl
    · simp at hnil
  · rintro rfl
    exact .absent (List.forall_mem_nil _)

/-- A part that is read may stand in a list, and what each key was given last is kept. -/
theorem lastGives_of_add? (h : options.add? part = some later)
    (hlast : ∀ key last, LastGives key parts last ↔ last = options.get key) :
    IsPart part ∧ ∀ key last, LastGives key (parts ++ [part]) last ↔ last = later.get key := by
  obtain ⟨hblank, hsame⟩ | ⟨key, value, hgives, hset⟩ | ⟨-, hnone⟩ := add?_cases options part
  · obtain rfl := Option.some.inj (hsame.symm.trans h)
    have hnot : ∀ key value, ¬Gives part key value := fun key value hgives ↦ by
      rw [hgives.allBlank_eq_false] at hblank
      cases hblank
    refine ⟨.inl hblank, fun key last ↦ ?_⟩
    rw [lastGives_concat_iff, ← hlast]
    simp [hnot]
  · obtain rfl := Option.some.inj (hset.symm.trans h)
    refine ⟨.inr ⟨key, value, hgives⟩, fun other last ↦ ?_⟩
    rw [lastGives_concat_iff, hlast]
    by_cases hkey : other = key
    · rw [hkey, Options.get_set_self]
      refine ⟨?_, fun h ↦ .inl ⟨value, hgives, h⟩⟩
      rintro (⟨value', hgives', rfl⟩ | ⟨hnone, -⟩)
      · rw [(hgives.unique hgives').2]
      · exact absurd hgives (hnone value)
    · rw [Options.get_set_of_ne options value hkey]
      refine ⟨?_, fun h ↦ .inr ⟨fun value' hgives' ↦ hkey (hgives.unique hgives').1, h⟩⟩
      rintro (⟨value', hgives', -⟩ | ⟨-, h⟩)
      · exact absurd (hgives.unique hgives').1 hkey
      · exact h
  · cases hnone.symm.trans h

/-- A list that is read has parts only that it may have, and each key has the value that it is given
last. -/
theorem lastGives_of_foldlM (h : parts.foldlM Options.add? {} = some options) :
    (∀ part ∈ parts, IsPart part) ∧
      ∀ key last, LastGives key parts last ↔ last = options.get key := by
  -- The last part decides, and so the induction is on the end of the list.
  induction parts using List.reverseRecOn generalizing options with
  | nil =>
    obtain rfl : {} = options := Option.some.inj h
    refine ⟨List.forall_mem_nil _, fun key last ↦ lastGives_nil_iff.trans ?_⟩
    cases key <;> rfl
  | append_singleton parts part ih =>
    rw [foldlM_concat] at h
    obtain ⟨before, hbefore, hadd⟩ := Option.bind_eq_some_iff.mp h
    obtain ⟨hparts, hlast⟩ := ih hbefore
    obtain ⟨hpart, hlater⟩ := lastGives_of_add? hadd hlast
    exact ⟨List.forall_mem_append.mpr ⟨hparts, List.forall_mem_singleton.mpr hpart⟩, hlater⟩

/-- A list that is refused has a part that it may not have. -/
theorem exists_not_isPart_of_foldlM (h : parts.foldlM Options.add? {} = none) :
    ∃ part ∈ parts, ¬IsPart part := by
  induction parts using List.reverseRecOn with
  | nil => cases h
  | append_singleton parts part ih =>
    rw [foldlM_concat] at h
    cases hbefore : parts.foldlM Options.add? {} with
    | none =>
      obtain ⟨earlier, hmem, hnot⟩ := ih hbefore
      exact ⟨earlier, List.mem_append_left _ hmem, hnot⟩
    | some before =>
      rw [hbefore, Option.bind_some] at h
      obtain ⟨-, hsame⟩ | ⟨key, value, -, hset⟩ | ⟨hnot, -⟩ := add?_cases before part
      · cases h.symm.trans hsame
      · cases h.symm.trans hset
      · exact ⟨part, by simp, hnot⟩

/-- The parts of a text between its commas. -/
structure IsList (raw : Text) (parts : List Text) : Prop where
  ne_nil : parts ≠ []
  comma : ∀ part ∈ parts, ',' ∉ part
  text : raw = Text.joinWith [','] parts

theorem isList_iff {raw : Text} : IsList raw parts ↔ parts = Text.splitWhere (· = ',') raw := by
  constructor
  · rintro ⟨hne, hcomma, rfl⟩
    refine (Text.splitWhere_joinWith (by decide) hne fun part hpart d hd ↦ ?_).symm
    exact decide_eq_false fun heq ↦ hcomma part hpart (heq ▸ hd)
  · rintro rfl
    refine ⟨Text.splitWhere_ne_nil raw, fun part hpart hmem ↦ ?_,
      (Text.joinWith_splitWhere ',' raw).symm⟩
    cases Text.eq_false_of_mem_splitWhere hpart hmem

namespace Options

/-- A list is read exactly if all its parts may stand there; the error names the whole list. -/
theorem parse_cases {raw : Text} (h : IsList raw parts) :
    ((∀ part ∈ parts, IsPart part) ∧ ∃ options, parse raw = .ok options ∧
      ∀ key last, LastGives key parts last ↔ last = options.get key) ∨
    (¬(∀ part ∈ parts, IsPart part) ∧ parse raw = .error (.invalidIncludeOptions raw)) := by
  rw [parse, ← isList_iff.mp h]
  cases hread : parts.foldlM add? {} with
  | some options =>
    obtain ⟨hparts, hlast⟩ := lastGives_of_foldlM hread
    exact .inl ⟨hparts, options, rfl, hlast⟩
  | none =>
    obtain ⟨part, hmem, hnot⟩ := exists_not_isPart_of_foldlM hread
    exact .inr ⟨fun h ↦ hnot (h part hmem), rfl⟩

/-- Two markers without commas are read back as they are written. -/
theorem parse_markers {s s' : Char} {a b : Text} (hs : isKeyEnd s = true) (hs' : isKeyEnd s' = true)
    (ha : ',' ∉ a) (hb : ',' ∉ b) :
    parse ("ini".toList ++ s :: a ++ ',' :: ("end".toList ++ s' :: b)) = .ok ⟨some a, some b⟩ := by
  have hini : Gives ("ini".toList ++ s :: a) .ini a :=
    ⟨"ini".toList, s, rfl, hs, by simp [isKeyEnd], by decide⟩
  have hfin : Gives ("end".toList ++ s' :: b) .fin b :=
    ⟨"end".toList, s', rfl, hs', by simp [isKeyEnd], by decide⟩
  have hcomma : ∀ {c}, isKeyEnd c = true → ',' ≠ c := by
    rintro c hc rfl
    cases hc
  have hlist : IsList ("ini".toList ++ s :: a ++ ',' :: ("end".toList ++ s' :: b))
      ["ini".toList ++ s :: a, "end".toList ++ s' :: b] :=
    ⟨by simp, by simp [ha, hb, hcomma hs, hcomma hs'], by simp [Text.joinWith]⟩
  rw [parse, ← isList_iff.mp hlist, List.foldlM_cons, add?_of_gives hini, Option.bind_eq_bind,
    Option.bind_some, List.foldlM_cons, add?_of_gives hfin]
  rfl

/-- **Option lists.** A text has its parts between commas in exactly one way. It is read exactly if
each part is blank or a key and a value; then the value of each key is the one that the last part
with this key gives it, as it stands. Otherwise the error names the whole text. So two markers
without commas are read back as they are written, whatever else they hold. -/
theorem parse_parts :
    (∀ raw, ∃! parts, IsList raw parts) ∧
    (∀ raw parts, IsList raw parts →
      ((∃ options, parse raw = .ok options) ↔ ∀ part ∈ parts, IsPart part) ∧
      (∀ options, parse raw = .ok options →
        ∀ key last, LastGives key parts last ↔ last = options.get key) ∧
      ∀ error, parse raw = .error error → error = .invalidIncludeOptions raw) ∧
    ∀ s s' a b, isKeyEnd s = true → isKeyEnd s' = true → ',' ∉ a → ',' ∉ b →
      parse ("ini".toList ++ s :: a ++ ',' :: ("end".toList ++ s' :: b)) =
        .ok ⟨some a, some b⟩ := by
  refine ⟨fun raw ↦ ?_, fun raw parts hlist ↦ ?_, fun s s' a b ↦ parse_markers⟩
  · exact ⟨_, isList_iff.mpr rfl, fun parts h ↦ isList_iff.mp h⟩
  obtain ⟨hparts, options, hok, hlast⟩ | ⟨hparts, herror⟩ := parse_cases hlist
  · rw [hok]
    refine ⟨iff_of_true ⟨options, rfl⟩ hparts, ?_, nofun⟩
    rintro _ ⟨⟩
    exact hlast
  · rw [herror]
    refine ⟨iff_of_false nofun hparts, nofun, ?_⟩
    rintro _ ⟨⟩
    rfl

/-- A blank part, a key twice, and values with blanks, an equals sign and a colon in them. -/
example : parse "ini=a, \u00a0,\tend :b = c,ini: =:d".toList =
    .ok ⟨some " =:d".toList, some "b = c".toList⟩ := by rfl

end Options

end Weave.Include
