import Weave.Proofs.Chaining
import Weave.Run.Interpreter

/-!
# Blocks as single lines

A block is handed over as one line, for the shell and for an interpreter: its lines are changed one
by one, some are left out, and the others are joined. Neither cares for empty lines, nor for
carriage returns at the end of a line, and so what a block becomes is put together from its parts,
however their lines end.

## Main definitions

* `Weave.Profile.Keeps`, `Weave.Profile.IsStatement`: what is left of a line, and what a statement
  is.

## Main results

* `Weave.Text.filter_map_lines_append`: what is kept of the lines of two texts.
* `Weave.ShellCommand.join_chains`: the command line of a block for the shell.
* `Weave.Profile.chdirCommand?_eq_some_iff`: the command that changes to a directory.
* `Weave.Profile.commandLine_frames`: the input line of a block for an interpreter.
-/

namespace Weave

namespace Text

/-! ### Lines that are kept -/

/-- A text without line feeds has no line end. -/
theorem withoutLineEnd_eq_self {t : Text} (h : '\n' ∉ t) : withoutLineEnd t = t := by
  have hfirst : ∀ rest, t.reverse ≠ '\n' :: rest := fun rest heq ↦
    h (List.mem_reverse.mp (heq ▸ List.mem_cons_self))
  unfold withoutLineEnd
  split
  · exact absurd ‹t.reverse = _› (hfirst _)
  · exact absurd ‹t.reverse = _› (hfirst _)
  · rfl

/-- The lines of a text are its parts between line feeds, each with its line feed; the last part is
a line unless it is empty. -/
theorem exists_splitWhere_lineFeed (t : Text) : ∃ front last, '\n' ∉ last ∧
    splitWhere (· = '\n') t = front ++ [last] ∧
      brokenLines t = front.map (· ++ ['\n']) ++ (if last = [] then [] else [last]) := by
  induction t with
  | nil => exact ⟨[], [], List.not_mem_nil, rfl, rfl⟩
  | cons c cs ih =>
    obtain ⟨front, last, hlast, hsplit, hlines⟩ := ih
    rw [splitWhere, brokenLines, hsplit, hlines]
    by_cases hc : c = '\n'
    · exact ⟨[] :: front, last, hlast, by simp [hc], by simp [hc]⟩
    · cases front with
      | nil =>
        refine ⟨[], c :: last, by simp [Ne.symm hc, hlast], by simp [hc], ?_⟩
        by_cases hnil : last = [] <;> simp [hc, hnil]
      | cons part rest => exact ⟨(c :: part) :: rest, last, hlast, by simp [hc], by simp [hc]⟩

section Kept

variable {f : Text → Text} {p : Text → Bool} (hnil : p (f []) = false)
  (hreturn : ∀ t, f (t ++ ['\r']) = f t)

include hreturn in
theorem apply_withoutLineEnd (t : Text) : f (withoutLineEnd (t ++ ['\n'])) = f t := by
  rcases List.eq_nil_or_concat' t with rfl | ⟨front, c, rfl⟩
  · rfl
  · by_cases hc : c = '\r'
    · rw [hc, hreturn, List.append_assoc]
      exact congrArg f (withoutLineEnd_append_returnLineFeed front)
    · have hsame : withoutLineEnd (front ++ [c] ++ ['\n']) = front ++ [c] := by
        simp [withoutLineEnd, hc]
      rw [hsame]

include hnil hreturn in
/-- If neither empty lines nor carriage returns at the end of a line matter, what is kept of the
lines is what is kept of the parts between line feeds. -/
theorem filter_map_lines (t : Text) :
    ((lines t).map f).filter p = ((splitWhere (· = '\n') t).map f).filter p := by
  obtain ⟨front, last, hlast, hsplit, hlines⟩ := exists_splitWhere_lineFeed t
  have hfront : ((front.map (· ++ ['\n'])).map withoutLineEnd).map f = front.map f := by
    simp only [List.map_map]
    exact List.map_congr_left fun part _ ↦ apply_withoutLineEnd hreturn part
  rw [lines, hlines, hsplit, List.map_append, List.map_append, List.map_append, List.filter_append,
    List.filter_append, hfront]
  split
  · simp [‹last = []›, hnil]
  · simp [withoutLineEnd_eq_self hlast]

include hnil hreturn in
/-- What is kept of two texts with a line feed between them is what is kept of each. -/
theorem filter_map_lines_append (s t : Text) :
    ((lines (s ++ '\n' :: t)).map f).filter p =
      ((lines s).map f).filter p ++ ((lines t).map f).filter p := by
  rw [filter_map_lines hnil hreturn, filter_map_lines hnil hreturn, filter_map_lines hnil hreturn,
    splitWhere_append_cons (by decide), List.map_append, List.filter_append]

include hnil hreturn in
/-- What is kept of lines that are joined by line feeds is what is kept of each. -/
theorem filter_map_lines_joinWith {ls : List Text} (h : ∀ line ∈ ls, '\n' ∉ line) :
    ((lines (joinWith ['\n'] ls)).map f).filter p = (ls.map f).filter p := by
  by_cases hls : ls = []
  · rw [hls]
    rfl
  · have hparts : ∀ line ∈ ls, ∀ c ∈ line, decide (c = '\n') = false := fun line hline c hc ↦
      decide_eq_false fun hfeed ↦ h line hline (hfeed ▸ hc)
    rw [filter_map_lines hnil hreturn, splitWhere_joinWith (by decide) hls hparts]

end Kept

theorem allBlank_trimEndWhere {p : Char → Bool} (hp : ∀ c, p c = true → isBlank c = true)
    (t : Text) : allBlank (trimEndWhere p t) = allBlank t := by
  obtain ⟨tail, ht, htail⟩ := exists_trimEndWhere_append p t
  have hblank : tail.all isBlank = true :=
    List.all_eq_true.mpr fun c hc ↦ hp c (List.all_eq_true.mp htail c hc)
  rw [allBlank, allBlank]
  conv_rhs => rw [ht, List.all_append, hblank, Bool.and_true]

/-- A blank at the end of a text goes with the blanks around it. -/
theorem trim_append_of_blank {c : Char} (hc : isBlank c = true) (t : Text) :
    trim (t ++ [c]) = trim t := by
  rw [trim, trim, trimStart, trimStart, trimStartWhere, trimStartWhere, List.dropWhile_append]
  split
  · rename_i hnil
    simp [List.isEmpty_iff.mp hnil, hc]
  · exact trimEndWhere_append_of_pos hc _

/-- A needle divides a text into parts that do not hold it, and replacing the needle puts the new
text between them. -/
theorem exists_replaceAll_eq {needle : Text} (hne : needle ≠ []) (new t : Text) :
    ∃ parts, parts ≠ [] ∧ (∀ part ∈ parts, ¬needle <:+: part) ∧ t = joinWith needle parts ∧
      replaceAll needle new t = joinWith new parts := by
  fun_induction replaceAll needle new t with
  | case1 t hnone =>
    exact ⟨[t], List.cons_ne_nil t [],
      List.forall_mem_singleton.mpr (breakOn?_eq_none_iff.mp hnone), rfl, rfl⟩
  | case2 t before rest hbreak hnil => exact absurd hnil hne
  | case3 t before rest hbreak _ ih =>
    obtain ⟨parts, hparts, hfree, hrest, hreplaced⟩ := ih
    refine ⟨before :: parts, List.cons_ne_nil before parts,
      List.forall_mem_cons.mpr ⟨not_infix_of_breakOn? hne hbreak, hfree⟩, ?_, ?_⟩
    · rw [joinWith_cons hparts, ← hrest, eq_append_of_breakOn? hbreak]
    · rw [joinWith_cons hparts, ← hreplaced]

/-- A needle that does not overlap itself is replaced between any parts that do not hold it. -/
theorem replaceAll_joinWith {needle : Text} (hne : needle ≠ []) (hneedle : needle.IsUnbordered)
    (new : Text) {parts : List Text} (hparts : parts ≠ [])
    (hfree : ∀ part ∈ parts, ¬needle <:+: part) :
    replaceAll needle new (joinWith needle parts) = joinWith new parts := by
  induction parts with
  | nil => exact absurd rfl hparts
  | cons part rest ih =>
    obtain ⟨hpart, hrest⟩ := List.forall_mem_cons.mp hfree
    by_cases hnil : rest = []
    · subst hnil
      rw [joinWith_singleton, joinWith_singleton, replaceAll]
      split
      · rfl
      · rename_i hbreak
        cases (breakOn?_eq_none_iff.mpr hpart).symm.trans hbreak
    · have hbreak : breakOn? needle (part ++ needle ++ joinWith needle rest) =
          some (part, joinWith needle rest) := (breakOn?_eq_some_iff hne hneedle).mpr ⟨rfl, hpart⟩
      rw [joinWith_cons hnil, joinWith_cons hnil, replaceAll]
      split
      · rename_i hnone
        cases hnone.symm.trans hbreak
      · rename_i before after hfound
        cases hfound.symm.trans hbreak
        rw [if_neg hne, ih hnil hrest]

/-- What is joined holds the characters of its parts. -/
theorem mem_joinWith {separator part : Text} {parts : List Text} (h : part ∈ parts) {c : Char}
    (hc : c ∈ part) : c ∈ joinWith separator parts := by
  induction parts with
  | nil => cases h
  | cons first rest ih =>
    by_cases hrest : rest = []
    · subst hrest
      rwa [joinWith_singleton, ← List.mem_singleton.mp h]
    · rw [joinWith_cons hrest]
      rcases List.mem_cons.mp h with rfl | h
      · simp [hc]
      · simp [ih h]

end Text

/-! ### The shell -/

namespace ShellCommand

/-- A line is blank with its carriage returns exactly if it is without them. -/
theorem allBlank_withoutReturns (line : Text) :
    Text.allBlank (Text.trimEndWhere (· = '\r') line) = Text.allBlank line :=
  Text.allBlank_trimEndWhere (fun c hc ↦ by rw [of_decide_eq_true hc]; decide) line

theorem commands_append (body more : Text) :
    commands (body ++ '\n' :: more) = commands body ++ commands more :=
  Text.filter_map_lines_append rfl (fun t ↦ Text.trimEndWhere_append_of_pos (by decide) t) body more

theorem commands_joinWith {ls : List Text} (h : ∀ line ∈ ls, '\n' ∉ line) :
    commands (Text.joinWith ['\n'] ls) =
      (ls.filter fun line ↦ !Text.allBlank line).map (Text.trimEndWhere (· = '\r')) := by
  have hkept : (fun line ↦ !Text.allBlank line) ∘ Text.trimEndWhere (· = '\r') =
      fun line ↦ !Text.allBlank line :=
    funext fun line ↦ congrArg not (allBlank_withoutReturns line)
  rw [commands, Text.filter_map_lines_joinWith rfl
    (fun t ↦ Text.trimEndWhere_append_of_pos (by decide) t) h, List.filter_map, hkept]

/-- No command is empty. -/
theorem ne_nil_of_mem_commands {body command : Text} (h : command ∈ commands body) :
    command ≠ [] := by
  rintro rfl
  cases (List.mem_filter.mp h).2

theorem join_eq_nil_iff {body : Text} : join body = [] ↔ commands body = [] :=
  Text.joinWith_eq_nil_iff fun _ ↦ ne_nil_of_mem_commands

theorem commands_eq_nil_iff {body : Text} :
    commands body = [] ↔ ∀ line ∈ Text.lines body, Text.allBlank line = true := by
  simp only [commands, List.filter_eq_nil_iff, List.forall_mem_map, allBlank_withoutReturns]
  simp

theorem join_append (body more : Text) : join (body ++ '\n' :: more) =
    if join more = [] then join body else if join body = [] then join more
    else join body ++ andThen ++ join more := by
  simp only [join_eq_nil_iff]
  rw [join, commands_append]
  split
  · rw [‹commands more = []›, List.append_nil, join]
  split
  · rw [‹commands body = []›, List.nil_append, join]
  · rw [Text.joinWith_append ‹_› ‹_›, join, join]

theorem lineFeed_notMem_join (body : Text) : '\n' ∉ join body := by
  refine Text.notMem_joinWith (by decide) fun command hcommand ↦ ?_
  obtain ⟨line, hline, rfl⟩ := List.mem_map.mp (List.mem_filter.mp hcommand).1
  exact mt Text.mem_of_mem_trimEndWhere (Text.lineFeed_notMem_of_mem_lines hline)

/-- **Chains.** The command line of two blocks, one below the other, is made of the command lines of
both, with a separator unless one of them is empty. It is empty exactly if all lines are blank, and
it holds no line feed. So of lines that are put one below the other, those that are not blank stand
in it in their order, each once and without the carriage returns at its end. -/
theorem join_chains :
    (∀ body more, join (body ++ '\n' :: more) =
      if join more = [] then join body else if join body = [] then join more
      else join body ++ andThen ++ join more) ∧
    (∀ body, join body = [] ↔ ∀ line ∈ Text.lines body, Text.allBlank line = true) ∧
    (∀ body, '\n' ∉ join body) ∧
    ∀ ls : List Text, (∀ line ∈ ls, '\n' ∉ line) → join (Text.joinWith ['\n'] ls) =
      Text.joinWith andThen
        ((ls.filter fun line ↦ !Text.allBlank line).map (Text.trimEndWhere (· = '\r'))) := by
  refine ⟨join_append, fun body ↦ join_eq_nil_iff.trans commands_eq_nil_iff, lineFeed_notMem_join,
    fun ls hls ↦ ?_⟩
  rw [join, commands_joinWith hls]

/-- The space of an ideographic script is blank, and a carriage return within a line stays. -/
example : join "\r\nls \r\r\n\u3000\na\rb".toList = "ls  && a\rb".toList := by decide +kernel

end ShellCommand

/-! ### Interpreters -/

namespace Profile

variable {profile : Profile} {line : Text}

/-- What is left of a line in front of its first comment. -/
inductive Keeps (profile : Profile) : Text → Text → Prop
  | all {line : Text} (h : ∀ marker, profile.comment = some marker → ¬marker <:+: line) :
      Keeps profile line line
  | front {marker kept rest : Text} (hmarker : profile.comment = some marker)
      (hfirst : ∀ before after, kept ++ marker ++ rest = before ++ marker ++ after →
        kept.length ≤ before.length) :
      Keeps profile (kept ++ marker ++ rest) kept

/-- A statement is not blank, has no blanks around it, and holds no marker of comments. -/
structure IsStatement (profile : Profile) (statement : Text) : Prop where
  blank : Text.allBlank statement = false
  first : ∀ c, statement.head? = some c → Text.isBlank c = false
  last : ∀ c, statement.getLast? = some c → Text.isBlank c = false
  comment : ∀ marker, profile.comment = some marker → marker ≠ [] → ¬marker <:+: statement

/-- The statement of a line is what is left of it, without the blanks around it. -/
theorem exists_keeps (profile : Profile) (line : Text) :
    ∃ kept, profile.Keeps line kept ∧ profile.statement line = Text.trim kept := by
  cases hcomment : profile.comment with
  | none => exact ⟨line, .all (by simp [hcomment]), by rw [statement, hcomment]⟩
  | some marker =>
    cases hbreak : Text.breakOn? marker line with
    | none =>
      have hnone := Text.breakOn?_eq_none_iff.mp hbreak
      exact ⟨line, .all (by simpa [hcomment] using hnone),
        by simp only [statement, hcomment, hbreak]⟩
    | some found =>
      obtain ⟨kept, rest⟩ := found
      refine ⟨kept, ?_, by simp only [statement, hcomment, hbreak]⟩
      obtain rfl := Text.eq_append_of_breakOn? hbreak
      refine .front hcomment fun before after heq ↦ ?_
      rw [heq] at hbreak
      exact Text.length_le_of_breakOn?_append hbreak

theorem exists_forall₂_keeps (profile : Profile) (ls : List Text) :
    ∃ kept, List.Forall₂ profile.Keeps ls kept ∧
      ls.map profile.statement = kept.map Text.trim := by
  induction ls with
  | nil => exact ⟨[], .nil, rfl⟩
  | cons line ls ih =>
    obtain ⟨first, hfirst, hstatement⟩ := exists_keeps profile line
    obtain ⟨kept, hkept, hstatements⟩ := ih
    exact ⟨first :: kept, .cons hfirst hkept, by
      rw [List.map_cons, hstatement, hstatements, List.map_cons]⟩

/-- What is left of a line stands in the line and holds no comment. -/
theorem Keeps.isInfix {kept : Text} (h : profile.Keeps line kept) : kept <:+: line := by
  cases h with
  | all => exact List.infix_rfl
  | front => exact ((List.prefix_append _ _).trans (List.prefix_append _ _)).isInfix

theorem Keeps.not_isInfix {kept marker : Text} (h : profile.Keeps line kept)
    (hmarker : profile.comment = some marker) (hne : marker ≠ []) : ¬marker <:+: kept := by
  cases h with
  | all hnone => exact hnone marker hmarker
  | @front first _ rest hfound hfirst =>
    obtain rfl : first = marker := Option.some.inj (hfound.symm.trans hmarker)
    rintro ⟨before, after, rfl⟩
    have hle := hfirst before (after ++ first ++ rest) (by simp only [List.append_assoc])
    have hpos := List.length_pos_iff.mpr hne
    simp only [List.length_append] at hle
    omega

/-- A statement is what is left of some line of the block. -/
theorem exists_line_of_mem_statements {body statement : Text}
    (h : statement ∈ profile.statements body) : statement ≠ [] ∧
      ∃ line ∈ Text.lines body, ∃ kept, profile.Keeps line kept ∧ statement = Text.trim kept := by
  obtain ⟨hmem, hne⟩ := List.mem_filter.mp h
  obtain ⟨line, hline, rfl⟩ := List.mem_map.mp hmem
  exact ⟨of_decide_eq_true hne, line, hline, exists_keeps profile line⟩

theorem isStatement_of_mem_statements {body statement : Text}
    (h : statement ∈ profile.statements body) : profile.IsStatement statement := by
  obtain ⟨hne, line, -, kept, hkeeps, rfl⟩ := exists_line_of_mem_statements h
  have hfirst : ∀ c, (Text.trim kept).head? = some c → Text.isBlank c = false :=
    fun _ ↦ Text.head?_trim
  refine ⟨?_, hfirst, fun _ ↦ Text.getLast?_trim, fun marker hmarker hnil hin ↦ ?_⟩
  · obtain ⟨c, cs, htrim⟩ := List.exists_cons_of_ne_nil hne
    have hc := hfirst c (by rw [htrim]; rfl)
    simp [htrim, Text.allBlank, hc]
  · exact hkeeps.not_isInfix hmarker hnil (hin.trans (Text.trim_isInfix kept))

theorem lineFeed_notMem_of_mem_statements {body statement : Text}
    (h : statement ∈ profile.statements body) : '\n' ∉ statement := by
  obtain ⟨-, line, hline, kept, hkeeps, rfl⟩ := exists_line_of_mem_statements h
  exact fun hmem ↦ Text.lineFeed_notMem_of_mem_lines hline
    (((Text.trim_isInfix kept).trans hkeeps.isInfix).subset hmem)

theorem statement_nil (profile : Profile) : profile.statement [] = [] := by
  obtain ⟨kept, hkeeps, heq⟩ := exists_keeps profile []
  rw [heq, List.infix_nil.mp hkeeps.isInfix]
  rfl

/-- A carriage return at the end of a line does not matter if no comment starts with one in it. -/
theorem statement_append_return
    (h : ∀ marker, profile.comment = some marker → ∀ c ∈ marker, Text.isLineBreak c = false)
    (line : Text) : profile.statement (line ++ ['\r']) = profile.statement line := by
  have htrim := Text.trim_append_of_blank (c := '\r') (by decide) line
  rw [statement, statement]
  cases hcomment : profile.comment with
  | none => exact htrim
  | some marker =>
    have hreturn : '\r' ∉ marker := fun hmem ↦ by cases h marker hcomment '\r' hmem
    simp only [Text.breakOn?_append_singleton hreturn]
    cases Text.breakOn? marker line with
    | none => exact htrim
    | some found => rfl

theorem statements_append
    (h : ∀ marker, profile.comment = some marker → ∀ c ∈ marker, Text.isLineBreak c = false)
    (body more : Text) :
    profile.statements (body ++ '\n' :: more) =
      profile.statements body ++ profile.statements more :=
  Text.filter_map_lines_append (by simp [statement_nil]) (statement_append_return h) body more

/-- The command that changes to a directory is there if the profile has one: the directory stands
between the parts that the placeholders divide it into. -/
theorem chdirCommand?_eq_some_iff {dir command : Text} :
    profile.chdirCommand? dir = some command ↔ ∃ parts, parts ≠ [] ∧
      (∀ part ∈ parts, ¬dirPlaceholder <:+: part) ∧
      profile.chdir = some (Text.joinWith dirPlaceholder parts) ∧
      command = Text.joinWith dir parts := by
  have hne : dirPlaceholder ≠ [] := by decide
  rw [chdirCommand?, Option.map_eq_some_iff]
  constructor
  · rintro ⟨template, htemplate, rfl⟩
    obtain ⟨parts, hparts, hfree, rfl, hcommand⟩ := Text.exists_replaceAll_eq hne dir template
    exact ⟨parts, hparts, hfree, htemplate, hcommand⟩
  · rintro ⟨parts, hparts, hfree, htemplate, rfl⟩
    exact ⟨_, htemplate, Text.replaceAll_joinWith hne (by decide) dir hparts hfree⟩

theorem lineFeed_notMem_commandLine {dir : Text} (hseparator : '\n' ∉ profile.separator)
    (hchdir : ∀ template, profile.chdir = some template → '\n' ∉ template) (hdir : '\n' ∉ dir)
    (body : Text) : '\n' ∉ profile.commandLine dir body := by
  refine Text.notMem_joinWith hseparator fun part hpart ↦ ?_
  rcases List.mem_append.mp hpart with hpart | hpart
  · obtain ⟨parts, -, -, htemplate, rfl⟩ :=
      chdirCommand?_eq_some_iff.mp (Option.mem_toList.mp hpart)
    exact Text.notMem_joinWith hdir fun part hpart hfeed ↦
      hchdir _ htemplate (Text.mem_joinWith hpart hfeed)
  · exact lineFeed_notMem_of_mem_statements hpart

/-- **Input lines.** The input line of a block is the change of directory, if the profile has one,
and the statements of the block, joined by the separator: what is left of each line, without the
blanks around it, unless that is nothing. No statement is blank, has blanks around it or holds a
marker of comments. The statements of two blocks, one below the other, are those of both if there is
no line break in that marker. With nothing in the profile or the directory that breaks it, the input
line is one line. -/
theorem commandLine_frames (profile : Profile) :
    (∀ dir body, ∃ kept, List.Forall₂ profile.Keeps (Text.lines body) kept ∧
      profile.statements body = (kept.map Text.trim).filter (· ≠ []) ∧
      profile.commandLine dir body = Text.joinWith profile.separator
        ((profile.chdirCommand? dir).toList ++ profile.statements body)) ∧
    (∀ body, ∀ statement ∈ profile.statements body, profile.IsStatement statement) ∧
    ((∀ marker, profile.comment = some marker → ∀ c ∈ marker, Text.isLineBreak c = false) →
      ∀ body more, profile.statements (body ++ '\n' :: more) =
        profile.statements body ++ profile.statements more) ∧
    ∀ dir, '\n' ∉ profile.separator →
      (∀ template, profile.chdir = some template → '\n' ∉ template) → '\n' ∉ dir →
      ∀ body, '\n' ∉ profile.commandLine dir body ∧
        Text.brokenLines (profile.commandLine dir body ++ ['\n']) =
          [profile.commandLine dir body ++ ['\n']] := by
  refine ⟨fun dir body ↦ ?_, fun _ _ ↦ isStatement_of_mem_statements, statements_append,
    fun dir hseparator hchdir hdir body ↦ ?_⟩
  · obtain ⟨kept, hkeeps, hstatements⟩ := exists_forall₂_keeps profile (Text.lines body)
    exact ⟨kept, hkeeps, by rw [statements, hstatements], rfl⟩
  · have hfeed := lineFeed_notMem_commandLine hseparator hchdir hdir body
    exact ⟨hfeed, Text.brokenLines_append_lineFeed hfeed⟩

/-- A line that is a comment as a whole leaves no statement, and so no separator. -/
example : builtin.commandLine "/w".toList "a = 1; % one\r\n%% two\n\t\n b \r\n".toList =
    "cd(\x27/w\x27),a = 1;,b".toList := by decide +kernel

end Profile

end Weave
