import Mathlib.Data.List.Forall2
import Mathlib.Data.List.TakeWhile
import Weave.Proofs.Printed
import Weave.Run.ShellCommand

/-!
# Chains of shell commands

The lines of a block for the shell become one line, and in one line a comment reaches to the end. So
of the commands in the lines of a block a shell sees those up to the first comment: the command in
front of that comment is the last one. It sees all of them exactly if no command stands in a line
behind one with a comment, unless it refuses the line, which then ends in a separator without a
command behind it.

Nothing more is assumed of the shell than what it sees in a single line with comments and
separators.

## Main definitions

* `Weave.ShellCommand.LineShell`: what is assumed of a shell.
* `Weave.ShellCommand.LineShell.Reads`: blank lines, commands and comments.
* `Weave.ShellCommand.upToComment`: the commands of some lines up to the first comment.
* `Weave.ShellCommand.wordShell`: a shell of which all this is true.

## Main results

* `Weave.ShellCommand.LineShell.sees_joinKept`: what a shell sees in joined lines.
* `Weave.ShellCommand.LineShell.sees_join`: when it sees the commands of all lines of a block.
-/

namespace Weave

namespace ShellCommand

/-! ### Lines -/

/-- The command line of some lines: those that are not blank, joined. -/
def joinKept (ls : List Text) : Text :=
  Text.joinWith andThen (ls.filter fun line ↦ !Text.allBlank line)

variable {line : Text} {ls : List Text}

theorem joinKept_cons_of_allBlank (h : Text.allBlank line = true) (ls : List Text) :
    joinKept (line :: ls) = joinKept ls := by
  rw [joinKept, List.filter_cons_of_neg (by simp [h]), joinKept]

/-- Behind a line that is not blank there are only blank ones, or the others follow a separator. -/
theorem joinKept_cons_of_not (h : Text.allBlank line = false) (ls : List Text) :
    (∀ l ∈ ls, Text.allBlank l = true) ∧ joinKept (line :: ls) = line ∨
      (∃ l ∈ ls, Text.allBlank l = false) ∧
        joinKept (line :: ls) = line ++ andThen ++ joinKept ls := by
  rw [joinKept, List.filter_cons_of_pos (by simp [h]), joinKept]
  cases hkept : ls.filter fun line ↦ !Text.allBlank line with
  | nil => exact .inl ⟨by simpa using hkept, rfl⟩
  | cons first rest =>
    have hfirst : first ∈ ls.filter fun line ↦ !Text.allBlank line :=
      hkept ▸ List.mem_cons_self
    obtain ⟨hmem, hblank⟩ := List.mem_filter.mp hfirst
    exact .inr ⟨⟨first, hmem, by simpa using hblank⟩, rfl⟩

theorem joinKept_of_allBlank (h : ∀ l ∈ ls, Text.allBlank l = true) : joinKept ls = [] := by
  rw [joinKept, List.filter_eq_nil_iff.mpr fun l hl ↦ by simp [h l hl]]
  rfl

theorem lineFeed_notMem_joinKept (h : ∀ l ∈ ls, '\n' ∉ l) : '\n' ∉ joinKept ls :=
  Text.notMem_joinWith (by decide) fun line hline ↦ h line (List.mem_filter.mp hline).1

/-! ### Shells -/

/-- What is assumed of a shell. The texts that it takes for one simple command without quotes, with
blanks around it, are up to the shell, and so is what it makes of other texts. -/
structure LineShell (α : Type) where
  /-- The commands that are seen in a line; `none` if the line is refused. -/
  sees : Text → Option (List α)
  /-- The texts that are one simple command. -/
  IsSimple : Text → Prop
  simple : ∀ {t : Text}, IsSimple t → ∃ command, sees t = some [command]
  blank : ∀ {t : Text}, (∀ c ∈ t, Text.isSpaceOrTab c = true) → sees t = some []
  /-- Everything from a number sign that starts a word to the end of the line is ignored. -/
  comment : ∀ {front rest : Text}, (∀ c ∈ front, Text.isSpaceOrTab c = true) ∨ IsSimple front →
    (∀ c, front.getLast? = some c → Text.isSpaceOrTab c = true) → '\n' ∉ rest →
      sees (front ++ '#' :: rest) = sees front
  /-- The separator stands between the commands in front of it and those behind it. -/
  separator : ∀ {first second : Text}, IsSimple first → '\n' ∉ second → sees second ≠ some [] →
    sees (first ++ andThen ++ second) = do return (← sees first) ++ (← sees second)
  /-- A line that ends in a separator without a command behind it may be refused. -/
  unfinished : ∀ {first second : Text}, IsSimple first → '\n' ∉ second → sees second = some [] →
    sees (first ++ andThen ++ second) = sees first ∨ sees (first ++ andThen ++ second) = none

/-- What stands in a line of a block: its commands, and whether a comment follows them. -/
structure Content (α : Type) where
  commands : List α
  hasComment : Bool

variable {α : Type} {shell : LineShell α} {contents : List (Content α)}

/-- A line of a block that is blank, a command, or a comment with or without a command in front of
it. -/
inductive LineShell.Reads (shell : LineShell α) : Text → Content α → Prop
  | blank {line : Text} (h : Text.allBlank line = true) : Reads shell line ⟨[], false⟩
  | command {line : Text} {command : α} (hblank : Text.allBlank line = false)
      (hsimple : shell.IsSimple line) (hsees : shell.sees line = some [command]) :
      Reads shell line ⟨[command], false⟩
  | comment {front : Text} (rest : Text) {commands : List α}
      (hfront : (∀ c ∈ front, Text.isSpaceOrTab c = true) ∨ shell.IsSimple front)
      (hlast : ∀ c, front.getLast? = some c → Text.isSpaceOrTab c = true)
      (hsees : shell.sees front = some commands) :
      Reads shell (front ++ '#' :: rest) ⟨commands, true⟩

/-- The commands of some lines up to the first comment. -/
def upToComment : List (Content α) → List α
  | [] => []
  | content :: contents =>
    content.commands ++ if content.hasComment then [] else upToComment contents

/-- The first comment stands in a line of its own, behind a command. -/
def BreaksOff (contents : List (Content α)) : Prop :=
  ∃ front back, contents = front ++ ⟨[], true⟩ :: back ∧
    (∀ content ∈ front, content.hasComment = false) ∧ ∃ content ∈ front, content.commands ≠ []

/-- A line without a comment goes before lines that break off. -/
theorem BreaksOff.cons (h : BreaksOff contents) {content : Content α}
    (hcomment : content.hasComment = false) : BreaksOff (content :: contents) := by
  obtain ⟨front, back, rfl, hfront, later, hlater, hcommand⟩ := h
  exact ⟨content :: front, back, rfl, List.forall_mem_cons.mpr ⟨hcomment, hfront⟩, later,
    List.mem_cons_of_mem _ hlater, hcommand⟩

/-- No command is lost exactly if none stands behind a comment. -/
theorem upToComment_eq_iff : upToComment contents = contents.flatMap Content.commands ↔
    contents.Pairwise fun content later ↦ content.hasComment = true → later.commands = [] := by
  induction contents with
  | nil => simp [upToComment]
  | cons content contents ih =>
    rw [upToComment, List.flatMap_cons, List.append_cancel_left_eq, List.pairwise_cons]
    cases hcomment : content.hasComment with
    | false => simpa using ih
    | true =>
      have hnone : [] = contents.flatMap Content.commands ↔
          ∀ later ∈ contents, later.commands = [] := by
        rw [eq_comm, List.flatMap_eq_nil_iff]
      simp only [if_true, hnone, forall_const]
      refine ⟨fun h ↦ ⟨h, List.pairwise_of_forall_mem_list fun _ _ later hlater _ ↦ h later hlater⟩,
        And.left⟩

/-- Lines in which no command is seen before the first comment have such a comment, or are blank. -/
theorem LineShell.Reads.exists_comment (h : List.Forall₂ shell.Reads ls contents)
    (hkept : ∃ l ∈ ls, Text.allBlank l = false) (hnone : upToComment contents = []) :
    ∃ front back, contents = front ++ ⟨[], true⟩ :: back ∧
      ∀ content ∈ front, content.hasComment = false := by
  induction h with
  | nil => simp at hkept
  | @cons line content ls contents hline _ ih =>
    rw [upToComment, List.append_eq_nil_iff] at hnone
    cases hline with
    | blank hblank =>
      obtain ⟨front, back, rfl, hfront⟩ :=
        ih (by simpa [hblank] using hkept) (by simpa using hnone.2)
      exact ⟨⟨[], false⟩ :: front, back, rfl, List.forall_mem_cons.mpr ⟨rfl, hfront⟩⟩
    | command => cases hnone.1
    | comment =>
      obtain rfl := hnone.1
      exact ⟨[], contents, rfl, List.forall_mem_nil _⟩

/-- Behind a comment nothing is seen of the lines that are joined to its own. -/
theorem LineShell.sees_joinKept_comment {front rest : Text}
    (hfront : (∀ c ∈ front, Text.isSpaceOrTab c = true) ∨ shell.IsSimple front)
    (hlast : ∀ c, front.getLast? = some c → Text.isSpaceOrTab c = true)
    (hfeed : ∀ l ∈ (front ++ '#' :: rest) :: ls, '\n' ∉ l) :
    shell.sees (joinKept ((front ++ '#' :: rest) :: ls)) = shell.sees front := by
  obtain ⟨hfeedLine, hfeedRest⟩ := List.forall_mem_cons.mp hfeed
  have hfeedComment : '\n' ∉ rest := fun hmem ↦ hfeedLine (by simp [hmem])
  have hblank : Text.allBlank (front ++ '#' :: rest) = false := by
    have hsign : Text.isBlank '#' = false := by decide
    simp [Text.allBlank, hsign]
  obtain ⟨-, heq⟩ | ⟨-, heq⟩ := joinKept_cons_of_not hblank ls
  · rw [heq, shell.comment hfront hlast hfeedComment]
  · have hfeedMore : '\n' ∉ rest ++ andThen ++ joinKept ls := by
      have hseparator : '\n' ∉ andThen := by decide
      simp [hfeedComment, hseparator, lineFeed_notMem_joinKept hfeedRest]
    have hmore : front ++ '#' :: rest ++ andThen ++ joinKept ls =
        front ++ '#' :: (rest ++ andThen ++ joinKept ls) := by simp
    rw [heq, hmore, shell.comment hfront hlast hfeedMore]

/-- A shell sees the commands of joined lines up to the first comment, or refuses the line, which
then breaks off. -/
theorem LineShell.sees_joinKept (h : List.Forall₂ shell.Reads ls contents)
    (hfeed : ∀ l ∈ ls, '\n' ∉ l) :
    shell.sees (joinKept ls) = some (upToComment contents) ∨
      shell.sees (joinKept ls) = none ∧ BreaksOff contents := by
  induction h with
  | nil => exact .inl (shell.blank (List.forall_mem_nil _))
  | @cons line content ls contents hline hrest ih =>
    have hfeedRest := (List.forall_mem_cons.mp hfeed).2
    have hjoined := lineFeed_notMem_joinKept hfeedRest
    cases hline with
    | blank hblank =>
      rw [joinKept_cons_of_allBlank hblank]
      exact (ih hfeedRest).imp id fun ⟨hrefused, hbreaks⟩ ↦ ⟨hrefused, hbreaks.cons rfl⟩
    | comment rest hfront hlast hsees =>
      exact .inl (by rw [sees_joinKept_comment hfront hlast hfeed, hsees]; simp [upToComment])
    | @command _ command hblank hsimple hsees =>
      obtain ⟨hall, heq⟩ | ⟨hkept, heq⟩ := joinKept_cons_of_not hblank ls
      · -- Nothing but blank lines follows, in which no command is seen.
        rw [joinKept_of_allBlank hall, shell.blank (List.forall_mem_nil _)] at ih
        obtain hnone : [] = upToComment contents := by simpa using ih hfeedRest
        exact .inl (by rw [heq, hsees, upToComment, ← hnone]; rfl)
      rw [heq]
      obtain hsome | ⟨hrefused, hbreaks⟩ := ih hfeedRest
      · by_cases hnone : upToComment contents = []
        · rw [hnone] at hsome
          obtain hsame | hrefused := shell.unfinished hsimple hjoined hsome
          · exact .inl (by rw [hsame, hsees, upToComment, hnone]; rfl)
          · obtain ⟨front, back, rfl, hfront⟩ := Reads.exists_comment hrest hkept hnone
            exact .inr ⟨hrefused, ⟨[command], false⟩ :: front, back, rfl,
              List.forall_mem_cons.mpr ⟨rfl, hfront⟩, _, List.mem_cons_self,
              List.cons_ne_nil command []⟩
        · have hmore : shell.sees (joinKept ls) ≠ some [] := by simpa [hsome] using hnone
          exact .inl (by rw [shell.separator hsimple hjoined hmore, hsees, hsome]; rfl)
      · have hmore : shell.sees (joinKept ls) ≠ some [] := by simp [hrefused]
        refine .inr ⟨?_, hbreaks.cons rfl⟩
        rw [shell.separator hsimple hjoined hmore, hsees, hrefused]
        rfl

/-- **Comments in a block for the shell.** Let every line of a block be blank, a simple command, or
a comment with or without a command in front of it. Of the line that is made of the block a shell
sees the commands up to the first comment; or it refuses the line, which happens only if that
comment stands in a line of its own behind a command. So the shell sees the commands of all lines
exactly if it does not refuse the line and no command stands in a line behind one with a comment. -/
theorem LineShell.sees_join (shell : LineShell α) {body : Text} {contents : List (Content α)}
    (h : List.Forall₂ shell.Reads ((Text.lines body).map (Text.trimEndWhere (· = '\r')))
      contents) :
    (shell.sees (join body) = some (upToComment contents) ∨
      shell.sees (join body) = none ∧ BreaksOff contents) ∧
    (shell.sees (join body) = some (contents.flatMap Content.commands) ↔
      shell.sees (join body) ≠ none ∧
        contents.Pairwise fun content later ↦ content.hasComment = true → later.commands = []) := by
  have hfeed : ∀ l ∈ (Text.lines body).map (Text.trimEndWhere (· = '\r')), '\n' ∉ l :=
    List.forall_mem_map.mpr fun l hl ↦
      mt Text.mem_of_mem_trimEndWhere (Text.lineFeed_notMem_of_mem_lines hl)
  have hjoin : shell.sees (join body) = some (upToComment contents) ∨
      shell.sees (join body) = none ∧ BreaksOff contents := sees_joinKept h hfeed
  refine ⟨hjoin, ?_⟩
  rw [← upToComment_eq_iff]
  obtain hsome | ⟨hrefused, -⟩ := hjoin
  · simp [hsome]
  · simp [hrefused]

/-! ### A shell of words -/

/-- The words between the spaces and tabs of a line. -/
def wordsOf (line : Text) : List Text :=
  (line.splitOnP Text.isSpaceOrTab).filter fun word ↦ !word.isEmpty

theorem wordsOf_append_cons {c : Char} (hc : Text.isSpaceOrTab c = true) (s t : Text) :
    wordsOf (s ++ c :: t) = wordsOf s ++ wordsOf t := by
  rw [wordsOf, List.splitOnP_append_cons s t hc, List.filter_append, wordsOf, wordsOf]

theorem wordsOf_eq_nil {t : Text} (h : ∀ c ∈ t, Text.isSpaceOrTab c = true) : wordsOf t = [] := by
  induction t with
  | nil => rfl
  | cons c cs ih =>
    obtain ⟨hc, hcs⟩ := List.forall_mem_cons.mp h
    exact (wordsOf_append_cons hc [] cs).trans (ih hcs)

/-- A number sign at the start of a text starts its first word. -/
theorem exists_wordsOf_sign (rest : Text) :
    ∃ word more, wordsOf ('#' :: rest) = ('#' :: word) :: more := by
  obtain ⟨word, more, hrest⟩ :=
    List.exists_cons_of_ne_nil (List.splitOnP_ne_nil Text.isSpaceOrTab rest)
  have hsign : ¬Text.isSpaceOrTab '#' = true := by decide
  refine ⟨word, more.filter fun word ↦ !word.isEmpty, ?_⟩
  rw [wordsOf, List.splitOnP_cons_eq_if_modifyHead, if_neg hsign, hrest]
  rfl

/-- Whether a word starts a comment. -/
def startsComment (word : Text) : Bool := word.head? = some '#'

/-- The words of a line up to a comment, divided at the separators. -/
def parts (line : Text) : List (List Text) :=
  ((wordsOf line).takeWhile fun word ↦ !startsComment word).splitOnP (· = "&&".toList)

/-- A text with words, of which none starts a comment or is a separator. -/
structure IsPlain (t : Text) : Prop where
  wordsOf_ne_nil : wordsOf t ≠ []
  word : ∀ word ∈ wordsOf t, startsComment word = false ∧ word ≠ "&&".toList

variable {front first : Text}

theorem IsPlain.parts_append (h : IsPlain first) (second : Text) :
    parts (first ++ andThen ++ second) = wordsOf first :: parts second := by
  have htext : first ++ andThen ++ second = first ++ ' ' :: ("&&".toList ++ ' ' :: second) := by
    simp [andThen]
  have hwords : wordsOf (first ++ andThen ++ second) =
      wordsOf first ++ "&&".toList :: wordsOf second := by
    rw [htext, wordsOf_append_cons (by decide), wordsOf_append_cons (by decide)]
    rfl
  have hopen : ∀ word ∈ wordsOf first, (!startsComment word) = true := fun word hword ↦ by
    simp [(h.word word hword).1]
  have hnone : ∀ word ∈ wordsOf first, decide (word = "&&".toList) = false := fun word hword ↦
    decide_eq_false (h.word word hword).2
  rw [parts, hwords, List.takeWhile_append_of_pos hopen, List.takeWhile_cons_of_pos (by decide),
    List.splitOnP_append_cons_of_forall_mem hnone _ (by decide), parts]

theorem IsPlain.parts_eq (h : IsPlain first) : parts first = [wordsOf first] := by
  have hopen : ∀ word ∈ wordsOf first, (!startsComment word) = true := fun word hword ↦ by
    simp [(h.word word hword).1]
  rw [parts, List.takeWhile_eq_self_iff.mpr hopen]
  exact List.splitOnP_eq_singleton fun word hword ↦ decide_eq_false (h.word word hword).2

theorem parts_append_comment
    (hlast : ∀ c, front.getLast? = some c → Text.isSpaceOrTab c = true) (rest : Text) :
    parts (front ++ '#' :: rest) = parts front := by
  have hwords : wordsOf (front ++ '#' :: rest) = wordsOf front ++ wordsOf ('#' :: rest) := by
    rcases List.eq_nil_or_concat' front with rfl | ⟨init, c, rfl⟩
    · rfl
    · have hc := hlast c (by simp)
      rw [List.append_assoc, List.singleton_append, wordsOf_append_cons hc,
        wordsOf_append_cons hc init []]
      simp [wordsOf]
  obtain ⟨word, more, hsign⟩ := exists_wordsOf_sign rest
  have hstop : ¬(!startsComment ('#' :: word)) = true := by simp [startsComment]
  rw [parts, hwords, hsign, parts, List.takeWhile_append, List.takeWhile_cons, if_neg hstop,
    List.append_nil]
  split
  · rename_i hlength
    rw [(List.takeWhile_sublist _).eq_of_length hlength]
  · rfl

/-- The commands of a line, each with its words. A line in which no command stands before or behind
a separator is refused. -/
def seen (line : Text) : Option (List (List Text)) :=
  if parts line = [[]] then some []
  else if [] ∈ parts line then none
  else some (parts line)

theorem parts_of_seen_eq_nil {line : Text} (h : seen line = some []) : parts line = [[]] := by
  rw [seen] at h
  split at h
  · assumption
  · split at h
    · cases h
    · exact absurd (Option.some.inj h) (List.splitOnP_ne_nil _ _)

theorem IsPlain.seen_eq (h : IsPlain first) : seen first = some [wordsOf first] := by
  have hne := h.wordsOf_ne_nil
  simp [seen, h.parts_eq, hne, hne.symm]

theorem IsPlain.seen_append (h : IsPlain first) (second : Text) :
    seen (first ++ andThen ++ second) =
      if [] ∈ parts second then none else some (wordsOf first :: parts second) := by
  have hne := h.wordsOf_ne_nil
  rw [seen, h.parts_append]
  simp [hne, hne.symm]

/-- A shell that knows words, comments and one separator. -/
def wordShell : LineShell (List Text) where
  sees := seen
  IsSimple := IsPlain
  simple {t} h := ⟨wordsOf t, h.seen_eq⟩
  blank {t} h := if_pos (by rw [parts, wordsOf_eq_nil h]; rfl)
  comment _ hlast _ := by rw [seen, parts_append_comment hlast, seen]
  separator {first second} h _ hsees := by
    have hmore : parts second ≠ [[]] := fun hparts ↦ hsees (if_pos hparts)
    rw [h.seen_append, h.seen_eq, seen, if_neg hmore]
    split <;> rfl
  unfinished {first second} h _ hsees := by
    have hmore : [] ∈ parts second := by simp [parts_of_seen_eq_nil hsees]
    exact .inr (by rw [h.seen_append, if_pos hmore])

theorem wordShell_reads_command {line : Text} (hblank : Text.allBlank line = false)
    (h : IsPlain line) : wordShell.Reads line ⟨[wordsOf line], false⟩ :=
  .command hblank h h.seen_eq

theorem wordShell_reads_comment {front : Text} (h : IsPlain front)
    (hlast : ∀ c, front.getLast? = some c → Text.isSpaceOrTab c = true) (rest : Text) :
    wordShell.Reads (front ++ '#' :: rest) ⟨[wordsOf front], true⟩ :=
  .comment rest (.inr h) hlast h.seen_eq

/-- A block with commands, a blank line and comments behind the commands. -/
def annotated : Text := "echo a\n \n echo b # note\r\n# end".toList

/-- All commands are seen in a block with comments behind the last one. -/
theorem sees_annotated : ∃ contents,
    List.Forall₂ wordShell.Reads ((Text.lines annotated).map (Text.trimEndWhere (· = '\r')))
      contents ∧
    join annotated = "echo a &&  echo b # note && # end".toList ∧
    wordShell.sees (join annotated) = some (contents.flatMap Content.commands) ∧
    contents.flatMap Content.commands =
      [["echo".toList, "a".toList], ["echo".toList, "b".toList]] := by
  have hlines : (Text.lines annotated).map (Text.trimEndWhere (· = '\r')) =
      ["echo a".toList, [' '], " echo b ".toList ++ '#' :: " note".toList,
        [] ++ '#' :: " end".toList] := by decide +kernel
  have hreads : List.Forall₂ wordShell.Reads
      ((Text.lines annotated).map (Text.trimEndWhere (· = '\r')))
      [⟨[wordsOf "echo a".toList], false⟩, ⟨[], false⟩, ⟨[wordsOf " echo b ".toList], true⟩,
        ⟨[], true⟩] := by
    rw [hlines]
    refine .cons (wordShell_reads_command (by decide) ⟨by decide, by decide⟩) <|
      .cons (.blank (by decide)) <|
      .cons (wordShell_reads_comment ⟨by decide, by decide⟩ (by rintro _ ⟨⟩; rfl) _) <|
      .cons (.comment _ (.inl (List.forall_mem_nil _)) (by simp) ?_) .nil
    exact wordShell.blank (List.forall_mem_nil _)
  refine ⟨_, hreads, by decide +kernel, ?_, by decide⟩
  exact (wordShell.sees_join hreads).2.mpr ⟨by decide +kernel, by decide⟩

/-- A block with a comment behind a command that is not the last one. -/
def interrupted : Text := "echo hello # note\necho bye\n".toList

/-- A comment behind a command swallows the command of the next line. -/
theorem sees_interrupted : ∃ contents,
    List.Forall₂ wordShell.Reads ((Text.lines interrupted).map (Text.trimEndWhere (· = '\r')))
      contents ∧
    contents.flatMap Content.commands =
      [["echo".toList, "hello".toList], ["echo".toList, "bye".toList]] ∧
    wordShell.sees (join interrupted) = some [["echo".toList, "hello".toList]] := by
  have hlines : (Text.lines interrupted).map (Text.trimEndWhere (· = '\r')) =
      ["echo hello ".toList ++ '#' :: " note".toList, "echo bye".toList] := by decide +kernel
  refine ⟨[⟨[wordsOf "echo hello ".toList], true⟩, ⟨[wordsOf "echo bye".toList], false⟩], ?_,
    by decide, by decide +kernel⟩
  rw [hlines]
  exact .cons (wordShell_reads_comment ⟨by decide, by decide⟩ (by rintro _ ⟨⟩; rfl) _) <|
    .cons (wordShell_reads_command (by decide) ⟨by decide, by decide⟩) .nil

end ShellCommand

end Weave
