import Weave.Proofs.Making

/-!
# Overwritten documents

A command line that names no output and starts no process can still write over its input: the
document beside the input is the input itself if that has the extension already. Apart from this
case no input and no source is changed.

## Main definitions

* `Weave.Subcommand.NamesNoOutput`: nothing is written to a path that is given.
* `Weave.Invocation.RunsNothing`: no process is started.

## Main results

* `Weave.FileTree.IsSound.read_write_of_ne`, `Weave.FileTree.IsSound.read_write_of_eq`: what a file
  holds after a file with an extension has been written beside it.
* `Weave.Invocation.run_overwrites_iff`: when the content of an input changes.
* `Weave.Desk.run_overwrites_draft`: an input that is lost.
-/

namespace Weave

open FileTree

/-! ### Files and what is written beside them -/

namespace FileTree

variable {tree after : FileTree} {dir : List Text} {path extension : Text}

/-- A path that can be read ends in the name of an entry, and its siblings are beside it. -/
theorem IsSound.exists_of_read (h : tree.IsSound) {old : Bytes}
    (hread : tree.read dir path = .ok old) :
    ∃ front name q entry, path = front ++ name ∧ Path.IsLead front ∧ Path.IsName name ∧
      tree.locate dir path = .ok (q ++ [name], some entry) ∧
      (entry = .null ∨ ∃ x, entry = .file old x) ∧
      ∀ {other : Text} {result}, Path.IsName other →
        tree.locate dir (front ++ other) = .ok result → result.2 ≠ some .directory →
          result.1 = q ++ [other] := by
  obtain ⟨place, entry, hlocate, hentry, hne⟩ : ∃ place entry,
      tree.locate dir path = .ok (place, some entry) ∧
        (entry = .null ∨ ∃ x, entry = .file old x) ∧ entry ≠ .directory := by
    obtain ⟨place, x, hlocate⟩ | ⟨-, place, hlocate⟩ := read_eq_ok_iff.mp hread
    · exact ⟨place, _, hlocate, .inr ⟨x, rfl⟩, nofun⟩
    · exact ⟨place, _, hlocate, .inl rfl, nofun⟩
  obtain ⟨front, name, rfl, hfront, hslash⟩ := Path.exists_lead_append path
  have hname : Path.IsPart name := by
    refine ⟨?_, hslash⟩
    rintro rfl
    rw [List.append_nil] at hlocate
    exact hne (eq_directory_of_isLead hfront hlocate)
  obtain ⟨hisName, q, rfl, hsibling⟩ := h.locate_sibling hfront hname hlocate hne
  exact ⟨front, name, q, entry, rfl, hfront, hisName, hlocate, hentry,
    fun hother hfound hdirectory ↦ congrArg Prod.fst (hsibling hother hfound hdirectory)⟩

/-- A file that is written beside another one does not change that one. -/
theorem IsSound.read_write_of_ne (h : tree.IsSound) (hextension : Path.IsExtension extension)
    {old new : Bytes} (hread : tree.read dir path = .ok old)
    (hwrite : tree.write dir (Path.withExtension path extension) new = .ok after)
    (hne : Path.withExtension path extension ≠ path) : after.read dir path = .ok old := by
  obtain ⟨front, name, q, entry, rfl, hfront, hname, hlocate, -, hsibling⟩ :=
    h.exists_of_read hread
  have hentry := (locate_eq_ok_iff.mp hlocate).2.snd_eq.symm
  have hagrees := agrees_write hwrite
  rw [Path.withExtension_append_name hfront hname] at hwrite hne
  have hkept : after.get? (q ++ [name]) = some entry := by
    obtain ⟨place, x, rfl, hput⟩ | ⟨rfl, -⟩ := write_eq_ok_iff.mp hwrite
    · have hplace : place = q ++ [Path.renamed name extension] := by
        obtain ⟨hput, -⟩ | ⟨c, hput⟩ := hput <;>
          exact hsibling (hname.renamed hextension) hput nofun
      have hother : q ++ [name] ≠ place := by
        rw [hplace]
        intro heq
        have hsame := (List.cons.inj (List.append_cancel_left heq)).1
        exact hne (congrArg (front ++ ·) hsame.symm)
      rw [get?_put_of_ne _ _ hother, hentry]
    · exact hentry
  have hkeep : after.locate dir (front ++ name) = tree.locate dir (front ++ name) :=
    (hagrees.locate_eq hlocate hkept).trans hlocate.symm
  rw [← hread, read, read, hkeep]

/-- A file with the extension is written over. -/
theorem IsSound.read_write_of_eq (h : tree.IsSound) (hextension : Path.IsExtension extension)
    {old new : Bytes} (hread : tree.read dir path = .ok old)
    (hwrite : tree.write dir (Path.withExtension path extension) new = .ok after)
    (heq : Path.withExtension path extension = path) : after.read dir path = .ok new := by
  obtain ⟨front, name, q, entry, rfl, hfront, hname, hlocate, -⟩ := h.exists_of_read hread
  have hagrees := agrees_write hwrite
  rw [heq] at hwrite
  rw [Path.withExtension_append_name hfront hname, List.append_cancel_left_eq,
    Path.renamed_eq_self_iff hname.ne_nil hextension] at heq
  obtain ⟨place, x, rfl, hput⟩ | ⟨-, place, hnull⟩ := write_eq_ok_iff.mp hwrite
  · have hplace : place = q ++ [name] := by
      obtain ⟨hput, -⟩ | ⟨c, hput⟩ := hput <;> cases hlocate.symm.trans hput
      rfl
    subst hplace
    have hput := get?_put_self tree (.file new x) (List.concat_ne_nil name q)
    exact read_eq_ok_iff.mpr (.inl ⟨_, x, hagrees.locate_eq hlocate hput⟩)
  · -- The device has no extension.
    cases hlocate.symm.trans hnull
    have hlast := congrArg List.getLast?
      (h.eq_devicePlace (locate_eq_ok_iff.mp hlocate).2.snd_eq.symm)
    rw [List.getLast?_concat] at hlast
    obtain rfl : name = "null".toList := Option.some.inj hlast
    have hnone : (Path.splitName "null".toList).2 = none := by decide
    cases hnone.symm.trans heq

/-- A file can be written in its place. -/
theorem exists_write {old : Bytes} (hread : tree.read dir path = .ok old) (new : Bytes) :
    ∃ after, tree.write dir path new = .ok after := by
  obtain ⟨place, x, hlocate⟩ | ⟨-, place, hlocate⟩ := read_eq_ok_iff.mp hread
  · exact ⟨_, write_eq_ok_iff.mpr (.inl ⟨place, x, rfl, .inr ⟨old, hlocate⟩⟩)⟩
  · exact ⟨tree, write_eq_ok_iff.mpr (.inr ⟨rfl, place, hlocate⟩)⟩

end FileTree

/-! ### Command lines -/

/-- The path that a subcommand is given to write to. -/
def Subcommand.output? : Subcommand → Option Text
  | .parse _ output _ _ _ => output
  | .make .. => none
  | .filter _ _ output => output

/-- Nothing is written to a path that is given: there is none, or it stands for the standard
output. -/
def Subcommand.NamesNoOutput (subcommand : Subcommand) : Prop :=
  ∀ path, subcommand.output? = some path → path = Invocation.standardOutput

namespace Invocation

/-- No process is started on a machine by a subcommand. -/
def RunsNothing (tools : Toolkit) (commandLine : CommandLine) (machine : Machine) :
    Subcommand → Prop
  | .parse input _ _ noExec collapse =>
    Idles (prepareParse tools commandLine (runOptions commandLine noExec collapse) input) machine
  | .make path recursive noExec collapse exclude => ∀ place excluded,
    machine.kernel.tree.locate machine.dir path = .ok (place, some .directory) →
    excludes tools exclude = .ok excluded →
    BuildsIdle tools commandLine (runOptions commandLine noExec collapse) path
      (Walk.sources sourceExtension excluded (tools.walk machine.kernel.tree recursive place))
      machine
  | .filter kind input _ => Idles (prepareFilter tools commandLine kind input) machine

/-- Where blocks are not run, no process is started. -/
theorem runsNothing_of_isUnexecuted {tools : Toolkit} {commandLine : CommandLine}
    {subcommand : Subcommand} (h : subcommand.isUnexecuted = true) (machine : Machine) :
    RunsNothing tools commandLine machine subcommand := by
  cases subcommand with
  | parse => exact idles_prepareParse h
  | make => exact fun _ _ _ _ ↦ buildsIdle_of_noExec _ _ _ _ h _ _
  | filter => exact idles_prepareFilter h

variable {tools : Toolkit} {commandLine : CommandLine} {machine : Machine} {input : Text}

/-- A document that is delivered to no path is printed. -/
theorem outcome_deliver_printed {output : Option Text}
    (h : ∀ path, output = some path → path = standardOutput) (text : Text) (console : Console) :
    (deliver output text).outcome console =
      (.ok (), { console with output := console.output ++ text }) := by
  cases output with
  | none => rfl
  | some path =>
    rw [deliver, if_pos (h path rfl)]
    rfl

/-- What is delivered to no path changes no file. -/
theorem machine_of_process_deliver {prepared : Invocation (Pipeline Child × Text)}
    (hlook : prepared.IsLook) (hidle : Idles prepared machine) {output : Option Text}
    (h : ∀ path, output = some path → path = standardOutput) :
    ((process prepared >>= deliver output).outcome { machine }).2.machine = machine := by
  rw [outcome_bind, process_idle hlook hidle]
  cases (process prepared).seen machine with
  | error failure => rfl
  | ok text =>
    dsimp only
    rw [outcome_deliver_printed h]

/-- What is delivered beside an input is written: the path beside it does not stand for the standard
output. -/
theorem deliver_builtPath (hsound : machine.kernel.tree.IsSound) {old : Bytes}
    (hread : machine.kernel.tree.read machine.dir input = .ok old) (text : Text) :
    deliver (some (builtPath input)) text = writeFile (builtPath input) text := by
  obtain ⟨front, name, -, -, rfl, hfront, hname, -⟩ := hsound.exists_of_read hread
  refine if_neg fun heq ↦ ?_
  rw [builtPath, Path.withExtension_append_name hfront hname] at heq
  have hdot : '.' ∈ standardOutput := heq ▸ by simp [Path.renamed]
  exact absurd hdot (by decide)

/-- What is delivered beside the input changes the input exactly if it is written over it and
differs from it. -/
theorem read_ne_iff {prepared : Invocation (Pipeline Child × Text)} (hlook : prepared.IsLook)
    (hidle : Idles prepared machine) (hsound : machine.kernel.tree.IsSound)
    (hreads : ∀ text, (process prepared).seen machine = .ok text →
      ∃ old, machine.kernel.tree.read machine.dir input = .ok old) :
    let after := ((process prepared >>= deliver (some (builtPath input))).outcome { machine }).2
    after.machine.kernel.tree.read after.machine.dir input ≠
        machine.kernel.tree.read machine.dir input ↔
      builtPath input = input ∧ ∃ text, (process prepared).seen machine = .ok text ∧
        machine.kernel.tree.read machine.dir input ≠ .ok (Utf8.encode text) := by
  rw [outcome_bind, process_idle hlook hidle]
  cases hseen : (process prepared).seen machine with
  | error failure => simp
  | ok text =>
    obtain ⟨old, hold⟩ := hreads text hseen
    dsimp only
    rw [deliver_builtPath hsound hold, outcome_writeFile, hold]
    cases hwrite : machine.kernel.tree.write machine.dir (builtPath input) (Utf8.encode text) with
    | error fault =>
      have hdiffers : builtPath input ≠ input := fun heq ↦ by
        obtain ⟨after, hafter⟩ := exists_write hold (Utf8.encode text)
        rw [heq, hafter] at hwrite
        cases hwrite
      simp [hold, hdiffers]
    | ok after =>
      by_cases heq : builtPath input = input
      · have hread := hsound.read_write_of_eq isExtension_builtExtension hold hwrite heq
        simp [hread, heq, eq_comm]
      · have hread := hsound.read_write_of_ne isExtension_builtExtension hold hwrite heq
        simp [hread, heq]

/-- Where sources are built, what has their extension stays as it is. -/
theorem IsMade.get?_source {options : RunOptions} {path name : Text} {root : List Text}
    {sources : List (List Text)} {failure : Option Failure} {after : Machine}
    (h : IsMade tools commandLine options path root sources machine failure after)
    (place : List Text)
    (hname : (Path.splitName name).2 = some sourceExtension) :
    after.kernel.tree.get? (place ++ [name]) = machine.kernel.tree.get? (place ++ [name]) := by
  obtain ⟨built, rest, hsplit, hframe, -⟩ := h.exists_built
  refine hframe _ fun hmem ↦ ?_
  obtain ⟨names, hnames, heq⟩ := List.mem_map.mp hmem
  have hsource := h.isSource names (hsplit ▸ List.mem_append_left rest hnames)
  have hother : (Path.splitName name).2 ≠ some builtExtension := fun hbuilt ↦
    builtExtension_ne_sourceExtension (Option.some.inj (hbuilt.symm.trans hname))
  exact builtPlace_ne hsource place hother heq

/-- **Overwritten documents.** On a machine with a sound tree, a command line that names no output
and starts no process changes the content of an input exactly if it writes beside an input that has
the extension of what is built, and what it writes is another text. A run on a directory whose walk
comes to regular files changes no file with the extension of the sources, and one filter changes
nothing. -/
theorem run_overwrites_iff (tools : Toolkit) (colored : Bool) (args : List Text) (machine : Machine)
    (commandLine : CommandLine) (subcommand : Subcommand)
    (hparse : tools.commandLine args = .ok commandLine)
    (hsubcommand : commandLine.subcommand = some subcommand)
    (houtput : subcommand.NamesNoOutput) (hidle : RunsNothing tools commandLine machine subcommand)
    (hsound : machine.kernel.tree.IsSound) :
    let after := (run colored args machine tools).2
    match subcommand with
    | .parse input _ beside noExec collapse =>
      after.kernel.tree.read after.dir input ≠ machine.kernel.tree.read machine.dir input ↔
        beside = true ∧ builtPath input = input ∧ ∃ text,
          (process (prepareParse tools commandLine (runOptions commandLine noExec collapse)
            input)).seen machine = .ok text ∧
          machine.kernel.tree.read machine.dir input ≠ .ok (Utf8.encode text)
    | .make .. => tools.WalksOnce machine.kernel.tree →
      ∀ place name, (Path.splitName name).2 = some sourceExtension →
        after.kernel.tree.get? (place ++ [name]) = machine.kernel.tree.get? (place ++ [name])
    | .filter .. => after = machine := by
  rw [run_eq hparse hsubcommand]
  cases subcommand with
  | parse input output beside noExec collapse =>
    have hlook := isLook_prepareParse tools commandLine (runOptions commandLine noExec collapse)
      input
    rw [perform, parse_eq]
    cases beside with
    | false =>
      have hmachine : ((process (prepareParse tools commandLine
          (runOptions commandLine noExec collapse) input) >>= deliver output).outcome
            { machine }).2.machine = machine := machine_of_process_deliver hlook hidle houtput
      simp [hmachine]
    | true =>
      have hiff := read_ne_iff hlook hidle hsound fun text ↦ exists_read_of_prepareParse
      simpa using hiff
  | make path recursive noExec collapse exclude =>
    intro after hwalk place name hname
    obtain ⟨failure, -, hdone⟩ | ⟨root, excluded, made, printed, result, -, -, hdone, hmade⟩ :=
      make_cases colored hsound hwalk hidle
    · exact congrArg (fun done ↦ done.2.machine.kernel.tree.get? (place ++ [name])) hdone
    · have hafter : after = made := congrArg (fun done ↦ done.2.machine) hdone
      rw [hafter]
      exact hmade.get?_source place hname
  | filter kind input output =>
    rw [perform, filter_eq]
    exact machine_of_process_deliver (isLook_prepareFilter tools commandLine input kind) hidle
      houtput

end Invocation

namespace Desk

open Invocation

/-- A source is kept where the document beside it is written. -/
theorem run_keeps_source :
    let commandLine : CommandLine :=
      { subcommand := some (.parse "a.mdoc".toList none true true false) }
    let args := ["parse".toList, "--md".toList, "--no-exec".toList, "a.mdoc".toList]
    let after := (run true args machine).2
    CommandLine.parse args = .ok commandLine ∧ tree.IsSound ∧
      after.kernel.tree.read after.dir "a.mdoc".toList = tree.read machine.dir "a.mdoc".toList := by
  intro commandLine args after
  have hparse : CommandLine.parse args = .ok commandLine := by decide +kernel
  have hiff := run_overwrites_iff .standard true args machine commandLine _ hparse rfl nofun
    (runsNothing_of_isUnexecuted rfl machine) isSound_tree
  have hother : builtPath "a.mdoc".toList ≠ "a.mdoc".toList := by decide +kernel
  refine ⟨hparse, isSound_tree, ?_⟩
  by_contra hne
  exact hother (hiff.mp hne).2.1

/-- A document that has the extension of what is built is written over, without a failure. -/
theorem run_overwrites_draft :
    let subcommand : Subcommand := .parse "x.md".toList none true true false
    let args := ["parse".toList, "--md".toList, "--no-exec".toList, "x.md".toList]
    let (outcome, after) := run true args machine
    CommandLine.parse args = .ok { subcommand := some subcommand } ∧
      subcommand.NamesNoOutput ∧ subcommand.isUnexecuted = true ∧ tree.IsSound ∧
      outcome.failure = none ∧
      tree.read machine.dir "x.md".toList = .ok (Utf8.encode "a<!-- b -->c\n".toList) ∧
      after.kernel.tree.read after.dir "x.md".toList = .ok (Utf8.encode "ac\n".toList) := by
  intro subcommand args
  refine ⟨by decide +kernel, nofun, rfl, isSound_tree, ?_, rfl, ?_⟩
  · exact Option.isNone_iff_eq_none.mp (by decide +kernel)
  · decide +kernel

end Desk

end Weave
