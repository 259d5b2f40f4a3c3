import Mathlib.Logic.ExistsUnique
import Weave.Document.Fence

/-!
# Groups of option tokens

The option tokens of a fence are read in groups: a flag, a `--path` with the token behind it, or one
token that asks for nothing. A `--path` takes the next token even if it looks like an option, and so
whether a token is a flag depends on everything in front of it; the groups of some tokens are
settled all the same. What the tokens ask for is a matter of the groups alone. Their order counts
for nothing but the directory, which is that of the last `--path`.

## Main definitions

* `Weave.FenceOptions.Group`: a group of option tokens.
* `Weave.FenceOptions.Reading`: some groups, and whether a `--path` without a directory follows.

## Main results

* `Weave.FenceOptions.Reading.tokens_ofTokens`, `Weave.FenceOptions.Reading.ofTokens_tokens`: tokens
  are read in exactly one way.
* `Weave.FenceOptions.parseFrom_tokens`: each group does its part, from the left.
* `Weave.FenceOptions.parse_groups`: what the groups of some tokens ask for.
-/

namespace Weave.FenceOptions

/-! ### Groups -/

/-- The tokens that ask for something. -/
def known : List Text := ["--path".toList, "--no-code".toList, "--no-echo".toList, "--raw".toList]

/-- A group of option tokens. -/
inductive Group where
  /-- The source is left out. -/
  | noCode
  /-- The result is left out. -/
  | noEcho
  /-- The result stands without a fence. -/
  | raw
  /-- The block is run in a directory, which may be any token. -/
  | path (directory : Text)
  /-- Nothing is asked for. -/
  | other (token : Text) (h : token ∉ known)

namespace Group

/-- The tokens of a group. -/
def tokens : Group → List Text
  | noCode => ["--no-code".toList]
  | noEcho => ["--no-echo".toList]
  | raw => ["--raw".toList]
  | path directory => ["--path".toList, directory]
  | other token _ => [token]

/-- The directory that a group asks for. -/
def directory? : Group → Option Text
  | path directory => some directory
  | _ => none

/-- Whether a group asks for nothing. -/
def isOther : Group → Bool
  | other _ _ => true
  | _ => false

/-- The options after one more group. -/
def apply (options : FenceOptions) : Group → FenceOptions
  | noCode => { options with noCode := true }
  | noEcho => { options with noEcho := true }
  | raw => { options with raw := true }
  | path directory => { options with path := some directory }
  | other _ _ => options

/-- The group of a token that stands alone. -/
def ofToken (token : Text) (hpath : token ≠ "--path".toList) : Group :=
  if hcode : token = "--no-code".toList then noCode
  else if hecho : token = "--no-echo".toList then noEcho
  else if hraw : token = "--raw".toList then raw
  else other token (by simp only [known, List.mem_cons, hpath, hcode, hecho, hraw]; simp)

theorem tokens_ofToken {token : Text} (hpath : token ≠ "--path".toList) :
    (ofToken token hpath).tokens = [token] := by
  unfold ofToken
  split
  · rw [‹token = _›, tokens]
  split
  · rw [‹token = _›, tokens]
  split
  · rw [‹token = _›, tokens]
  · rfl

/-- A group is a token that stands alone, or takes the token behind it. -/
theorem ofToken_cases (group : Group) :
    (∃ token hpath, group = ofToken token hpath) ∨ ∃ directory, group = path directory := by
  cases group with
  | noCode => exact .inl ⟨"--no-code".toList, by decide, by simp [ofToken]⟩
  | noEcho => exact .inl ⟨"--no-echo".toList, by decide, by simp [ofToken]⟩
  | raw => exact .inl ⟨"--raw".toList, by decide, by simp [ofToken]⟩
  | path directory => exact .inr ⟨directory, rfl⟩
  | other token h =>
    simp only [known, List.mem_cons, List.not_mem_nil, or_false, not_or] at h
    obtain ⟨hpath, hcode, hecho, hraw⟩ := h
    exact .inl ⟨token, hpath, by rw [ofToken, dif_neg hcode, dif_neg hecho, dif_neg hraw]⟩

end Group

/-- Some groups of option tokens, and whether a `--path` without a directory follows them. -/
structure Reading where
  groups : List Group
  lone : Bool

namespace Reading

/-- The tokens that are read. -/
def tokens (reading : Reading) : List Text :=
  reading.groups.flatMap Group.tokens ++ if reading.lone then ["--path".toList] else []

/-- The directories that are asked for, in order. -/
def directories (reading : Reading) : List Text := reading.groups.filterMap Group.directory?

/-- A reading with one more group in front. -/
def cons (group : Group) (reading : Reading) : Reading :=
  ⟨group :: reading.groups, reading.lone⟩

@[simp] theorem tokens_cons (group : Group) (reading : Reading) :
    (reading.cons group).tokens = group.tokens ++ reading.tokens := by
  rw [tokens, cons, List.flatMap_cons, List.append_assoc, tokens]

/-- The groups of some tokens. -/
def ofTokens : List Text → Reading
  | [] => ⟨[], false⟩
  | token :: rest =>
    if h : token = "--path".toList then
      match rest with
      | [] => ⟨[], true⟩
      | directory :: rest => (ofTokens rest).cons (.path directory)
    else (ofTokens rest).cons (.ofToken token h)

/-- Tokens are read without a loss. -/
theorem tokens_ofTokens (tokens : List Text) : (ofTokens tokens).tokens = tokens := by
  fun_induction ofTokens tokens with
  | case1 => rfl
  | case2 => rfl
  | case3 directory rest ih => rw [tokens_cons, ih]; rfl
  | case4 token rest h ih => rw [tokens_cons, ih, Group.tokens_ofToken]; rfl

theorem ofTokens_append (group : Group) (rest : List Text) :
    ofTokens (group.tokens ++ rest) = (ofTokens rest).cons group := by
  obtain ⟨token, hpath, rfl⟩ | ⟨directory, rfl⟩ := group.ofToken_cases
  · rw [Group.tokens_ofToken, List.singleton_append, ofTokens.eq_def]
    exact dif_neg hpath
  · rw [Group.tokens, ofTokens.eq_def]
    exact dif_pos rfl

/-- A reading grows by groups in front. -/
@[elab_as_elim, induction_eliminator]
theorem induction {motive : Reading → Prop} (nil : ∀ lone, motive ⟨[], lone⟩)
    (cons : ∀ group reading, motive reading → motive (cons group reading)) (reading : Reading) :
    motive reading := by
  obtain ⟨groups, lone⟩ := reading
  induction groups with
  | nil => exact nil lone
  | cons group groups ih => exact cons group ⟨groups, lone⟩ ih

/-- Tokens are read in one way only. -/
theorem ofTokens_tokens (reading : Reading) : ofTokens reading.tokens = reading := by
  induction reading with
  | nil lone => cases lone <;> simp [tokens, ofTokens]
  | cons group reading ih => rw [tokens_cons, ofTokens_append, ih]

end Reading

/-! ### What groups ask for -/

variable {groups : List Group}

theorem parseFrom_cons {token : Text} (hpath : token ≠ "--path".toList) (options : FenceOptions)
    (rest : List Text) : parseFrom options (token :: rest) =
      parseFrom (Group.apply options (.ofToken token hpath)) rest := by
  rw [parseFrom.eq_def, Group.ofToken]
  simp only [hpath, if_false]
  split
  · rfl
  split
  · rfl
  split <;> rfl

/-- A group does its part, whatever follows it. -/
theorem parseFrom_append (options : FenceOptions) (group : Group) (rest : List Text) :
    parseFrom options (group.tokens ++ rest) = parseFrom (group.apply options) rest := by
  obtain ⟨token, hpath, rfl⟩ | ⟨directory, rfl⟩ := group.ofToken_cases
  · rw [Group.tokens_ofToken, List.singleton_append, parseFrom_cons hpath]
  · rw [Group.tokens, parseFrom.eq_def]
    exact if_pos rfl

theorem parseFrom_tokens (options : FenceOptions) (reading : Reading) :
    parseFrom options reading.tokens = reading.groups.foldl Group.apply options := by
  induction reading generalizing options with
  | nil lone => cases lone <;> simp [Reading.tokens, parseFrom]
  | cons group reading ih => rw [Reading.tokens_cons, parseFrom_append, ih]; rfl

/-- There is a warning exactly if a `--path` is left without a directory. -/
theorem warnings_tokens (reading : Reading) :
    warnings reading.tokens = if reading.lone then [missingDirectory] else [] := by
  induction reading with
  | nil lone => cases lone <;> simp [Reading.tokens, warnings]
  | cons group reading ih =>
    rw [Reading.tokens_cons, Reading.cons, ← ih]
    obtain ⟨token, hpath, rfl⟩ | ⟨directory, rfl⟩ := group.ofToken_cases
    · rw [Group.tokens_ofToken, List.singleton_append, warnings.eq_def]
      exact if_neg hpath
    · rw [Group.tokens, warnings.eq_def]
      exact if_pos rfl

/-- A flag that one group sets, and no other group touches, is set if the group is there. -/
theorem foldl_apply_flag {flag : FenceOptions → Bool} (group : Group)
    (h : ∀ options next, flag (Group.apply options next) = true ↔
      next = group ∨ flag options = true) (options : FenceOptions) :
    flag (groups.foldl Group.apply options) = true ↔ group ∈ groups ∨ flag options = true := by
  induction groups generalizing options with
  | nil => simp
  | cons next groups ih =>
    rw [List.foldl_cons, ih, h, List.mem_cons, or_left_comm, eq_comm, or_assoc]

/-- The directory is that of the last group that asks for one. -/
theorem foldl_apply_path (options : FenceOptions) :
    (groups.foldl Group.apply options).path =
      (groups.filterMap Group.directory?).getLast?.or options.path := by
  induction groups generalizing options with
  | nil => simp
  | cons next groups ih =>
    rw [List.foldl_cons, ih]
    cases next with
    | path directory =>
      rw [List.filterMap_cons, Group.directory?, List.getLast?_cons]
      cases (groups.filterMap Group.directory?).getLast? <;> rfl
    | _ => simp [Group.directory?, Group.apply]

attribute [ext] FenceOptions

/-- What the tokens ask for: a flag is set if its group is there, and the directory is that of the
last `--path`. -/
structure AsksFor (reading : Reading) (options : FenceOptions) : Prop where
  noCode : options.noCode = true ↔ .noCode ∈ reading.groups
  noEcho : options.noEcho = true ↔ .noEcho ∈ reading.groups
  raw : options.raw = true ↔ .raw ∈ reading.groups
  path : options.path = reading.directories.getLast?

theorem asksFor_parse (reading : Reading) : AsksFor reading (parse reading.tokens) := by
  rw [parse, parseFrom_tokens]
  refine ⟨?_, ?_, ?_, ?_⟩
  · rw [foldl_apply_flag .noCode fun options next ↦ by cases next <;> simp [Group.apply]]
    simp
  · rw [foldl_apply_flag .noEcho fun options next ↦ by cases next <;> simp [Group.apply]]
    simp
  · rw [foldl_apply_flag .raw fun options next ↦ by cases next <;> simp [Group.apply]]
    simp
  · rw [foldl_apply_path, Option.or_none, Reading.directories]

/-- Two readings with the same groups, apart from those that ask for nothing, and the same last
directory ask for the same. -/
theorem parse_congr {reading other : Reading}
    (hgroups : ∀ group, group.isOther = false → (group ∈ reading.groups ↔ group ∈ other.groups))
    (hlast : reading.directories.getLast? = other.directories.getLast?) :
    parse reading.tokens = parse other.tokens := by
  obtain ⟨hcode, hecho, hraw, hpath⟩ := asksFor_parse reading
  obtain ⟨hcode', hecho', hraw', hpath'⟩ := asksFor_parse other
  rw [hgroups _ rfl] at hcode hecho hraw
  ext1
  · rw [hpath, hlast, hpath']
  · rw [Bool.eq_iff_iff, hcode, hcode']
  · rw [Bool.eq_iff_iff, hecho, hecho']
  · rw [Bool.eq_iff_iff, hraw, hraw']

theorem directories_filter (reading : Reading) :
    (reading.groups.filter fun group ↦ !group.isOther).filterMap Group.directory? =
      reading.directories := by
  rw [List.filterMap_filter, Reading.directories]
  congr 1
  funext group
  cases group <;> rfl

/-- **Groups.** Tokens are read in exactly one way, as groups that an unfinished `--path` may
follow. Each flag is set exactly if its group is there, and the directory is that of the last
`--path`; the unfinished one only makes a warning. So groups that are put in another order ask for
the same as long as the last directory is the same, and groups that ask for nothing make no
difference, wherever they stand. -/
theorem parse_groups :
    (∀ tokens, ∃! reading : Reading, reading.tokens = tokens) ∧
    (∀ reading, AsksFor reading (parse reading.tokens) ∧
      warnings reading.tokens = if reading.lone then [missingDirectory] else []) ∧
    (∀ reading other : Reading, reading.groups.Perm other.groups →
      reading.directories.getLast? = other.directories.getLast? →
        parse reading.tokens = parse other.tokens) ∧
    ∀ reading other : Reading, (reading.groups.filter fun group ↦ !group.isOther) =
      (other.groups.filter fun group ↦ !group.isOther) →
        parse reading.tokens = parse other.tokens := by
  refine ⟨fun tokens ↦ ?_, fun reading ↦ ⟨asksFor_parse reading, warnings_tokens reading⟩,
    fun reading other hperm hlast ↦ ?_, fun reading other hsame ↦ ?_⟩
  · exact ⟨.ofTokens tokens, Reading.tokens_ofTokens tokens,
      fun reading h ↦ h ▸ (reading.ofTokens_tokens).symm⟩
  · exact parse_congr (fun _ _ ↦ hperm.mem_iff) hlast
  · refine parse_congr (fun group hgroup ↦ ?_) ?_
    · have hmem : ∀ groups : List Group,
          group ∈ (groups.filter fun group ↦ !group.isOther) ↔ group ∈ groups := by
        simp [hgroup]
      rw [← hmem reading.groups, hsame, hmem]
    · rw [← directories_filter reading, hsame, directories_filter]

/-- A directory may look like a flag, and then the flag is not set; the second directory counts. -/
example : parse ["--path".toList, "--raw".toList, "x".toList, "--path".toList, "--path".toList,
    "--no-code".toList, "--path".toList] = ⟨some "--path".toList, true, false, false⟩ := by
  decide +kernel

end Weave.FenceOptions
