import Weave.Proofs.Processing
import Weave.Proofs.Sources

/-!
# Making documents

The sources of a directory are built one after the other. A source that fails ends the run: what has
been built before it stays, each file holding what its source was rendered to on the machine as it
was then, and nothing else has changed. One document that fails leaves everything as it was.

## Main definitions

* `Weave.Invocation.rendering`: what a source is rendered to on a machine.
* `Weave.Invocation.Builds`: sources that have been built one after the other.
* `Weave.Invocation.BuildFails`: a source that cannot be rendered, or whose file cannot be written.
* `Weave.Invocation.BuildsIdle`: sources for which no process is started.
* `Weave.Invocation.IsMade`: what a run on a directory leaves behind.

## Main results

* `Weave.Invocation.build_cases`: what building one source does.
* `Weave.Invocation.forM_build_cases`: what building sources one after the other does.
* `Weave.Invocation.make_cases`: what a run on a directory does.
* `Weave.Invocation.run_unexecuted`: what a failure leaves behind where blocks are not run.
-/

namespace Weave

namespace Invocation

open FileTree

/-! ### Sources of a directory -/

theorem isExtension_builtExtension : Path.IsExtension builtExtension where
  ne_nil := by decide
  slash := by decide
  dot := by decide

theorem builtExtension_ne_sourceExtension : builtExtension ≠ sourceExtension := by decide

variable (tools : Toolkit)

/-- The path of a source below a directory. -/
def sourcePath (path : Text) (names : List Text) : Text :=
  Path.join path (Text.joinWith ['/'] names)

/-- The place of what is built beside a source below a directory. -/
def builtPlace (place names : List Text) : List Text :=
  place ++ Walk.builtNames builtExtension names

/-- The sources below the directory at a path. -/
def findSources (path : Text) (recursive : Bool) (exclude : List Text) :
    Invocation (List (List Text)) := do
  let tree ← files
  let place ← dir
  match tree.locate place path with
  | .ok (place, some .directory) =>
    let excluded ← accept (excludes tools exclude)
    return Walk.sources sourceExtension excluded (tools.walk tree recursive place)
  | _ => throw (.refused (.readInput path "not a directory".toList))

/-- Builds sources below a directory, and reports on them. -/
def buildAll (commandLine : CommandLine) (colored : Bool) (options : RunOptions) (path : Text) :
    List (List Text) → Invocation Unit
  | [] => print "No .mdoc files found.\n".toList
  | sources => do
    sources.forM (build tools commandLine options path)
    print (report (colored && !commandLine.noColor) sources.length)

theorem make_eq (commandLine : CommandLine) (colored : Bool) (path : Text)
    (recursive noExec collapse : Bool) (exclude : List Text) :
    make tools commandLine colored path recursive noExec collapse exclude =
      findSources tools path recursive exclude >>=
        buildAll tools commandLine colored (runOptions commandLine noExec collapse) path := by
  unfold make findSources
  rw [bind_assoc]
  refine bind_congr fun tree ↦ ?_
  rw [bind_assoc]
  refine bind_congr fun here ↦ ?_
  rcases tree.locate here path with _ | ⟨place, _ | (_ | _ | _ | _)⟩
  case ok.some.directory =>
    dsimp only
    rw [pure_bind, bind_assoc]
    refine bind_congr fun excluded ↦ ?_
    rw [pure_bind]
    cases Walk.sources sourceExtension excluded (tools.walk tree recursive place) <;> rfl
  all_goals rfl

theorem isLook_findSources (path : Text) (recursive : Bool) (exclude : List Text) :
    (findSources tools path recursive exclude).IsLook := by
  refine isLook_files.bind fun tree ↦ isLook_dir.bind fun here ↦ ?_
  rcases tree.locate here path with _ | ⟨place, _ | (_ | _ | _ | _)⟩
  case ok.some.directory => exact (isLook_accept _).bind fun _ ↦ isLook_pure _
  all_goals exact isLook_throw _

variable {tools}

/-- The sources are looked for in a directory, with patterns that are not refused. -/
theorem exists_of_seen_findSources {path : Text} {recursive : Bool} {exclude : List Text}
    {machine : Machine} {sources : List (List Text)}
    (h : (findSources tools path recursive exclude).seen machine = .ok sources) :
    ∃ place excluded, machine.kernel.tree.locate machine.dir path = .ok (place, some .directory) ∧
      excludes tools exclude = .ok excluded ∧
      sources = Walk.sources sourceExtension excluded
        (tools.walk machine.kernel.tree recursive place) := by
  simp only [findSources, isLook_files.seen_bind_eq_ok_iff, isLook_dir.seen_bind_eq_ok_iff,
    seen_files, seen_dir, Except.ok.injEq, exists_eq_left'] at h
  rcases hlocate : machine.kernel.tree.locate machine.dir path with _ | ⟨place, _ | (_ | _ | _ | _)⟩
  case ok.some.directory =>
    rw [hlocate] at h
    obtain ⟨excluded, hexcluded, h⟩ := (isLook_accept _).seen_bind_eq_ok_iff.mp h
    cases h
    exact ⟨place, excluded, rfl, seen_accept_eq_ok_iff.mp hexcluded, rfl⟩
  all_goals
    rw [hlocate] at h
    cases h

/-- Sources are not looked for where there is no directory, or with a pattern that is refused. -/
theorem refused_of_seen_findSources {path : Text} {recursive : Bool} {exclude : List Text}
    {machine : Machine} {failure : Failure}
    (h : (findSources tools path recursive exclude).seen machine = .error failure) :
    machine.kernel.tree.isDirectory machine.dir path = false ∨
      ∃ e, excludes tools exclude = .error e := by
  by_contra hnone
  obtain ⟨hdirectory, hpatterns⟩ := not_or.mp hnone
  obtain ⟨place, hplace⟩ := isDirectory_eq_true_iff.mp (by simpa using hdirectory)
  rw [findSources, isLook_files.seen_bind, seen_files] at h
  dsimp only at h
  rw [isLook_dir.seen_bind, seen_dir] at h
  dsimp only at h
  rw [hplace] at h
  cases hexclude : excludes tools exclude with
  | error e => exact hpatterns ⟨e, hexclude⟩
  | ok excluded =>
    rw [hexclude] at h
    cases h

/-! ### Building one source -/

/-- What a source is rendered to on a machine. -/
def rendering (tools : Toolkit) (commandLine : CommandLine) (options : RunOptions) (source : Text)
    (machine : Machine) : Except Failure Text :=
  (render tools commandLine options source none).seen machine

section Build

variable (tools : Toolkit) (commandLine : CommandLine) (options : RunOptions) (path : Text)

/-- A source fails on a machine: it cannot be processed, or what is built beside it cannot be
written. -/
inductive BuildFails (names : List Text) (machine : Machine) : Failure → Prop
  | processing {e : Error}
      (hfails : (Processing.standard options (sourcePath path names) none).Fails tools commandLine
        machine)
      (hrendering : rendering tools commandLine options (sourcePath path names) machine =
        .error (.refused e)) :
      BuildFails names machine (.refused e)
  | writing {text : Text} {fault : FileFault}
      (hrendering : rendering tools commandLine options (sourcePath path names) machine =
        .ok text)
      (hwrite : machine.kernel.tree.write machine.dir (builtPath (sourcePath path names))
        (Utf8.encode text) = .error fault) :
      BuildFails names machine (.unwritable fault)

variable {tools commandLine options path}

/-- If no process is started, a source that is not rendered cannot be processed. -/
theorem buildFails_of_rendering {names : List Text} {machine : Machine} {failure : Failure}
    (hidle : Idles (prepare tools commandLine options (sourcePath path names) none) machine)
    (h : rendering tools commandLine options (sourcePath path names) machine = .error failure) :
    BuildFails tools commandLine options path names machine failure := by
  have hprepares : (Processing.standard options (sourcePath path names) none).Prepares tools
      commandLine machine (prepare tools commandLine options (sourcePath path names) none) :=
    Processing.prepares_prepare none
  have hseen := h
  rw [rendering, render_eq] at hseen
  obtain ⟨e, rfl⟩ := hprepares.refused hidle hseen
  exact .processing ((hprepares.fails_iff hidle).mpr ⟨_, hseen⟩) h

variable (tools commandLine options path)

/-- No process is started for sources that are built one after the other. -/
def BuildsIdle : List (List Text) → Machine → Prop
  | [], _ => True
  | names :: rest, machine =>
    Idles (prepare tools commandLine options (sourcePath path names) none) machine ∧
      ∀ text tree, rendering tools commandLine options (sourcePath path names) machine = .ok text →
        machine.kernel.tree.write machine.dir (builtPath (sourcePath path names))
          (Utf8.encode text) = .ok tree → BuildsIdle rest (machine.withTree tree)

theorem buildsIdle_of_noExec (h : options.noExec = true) (sources : List (List Text))
    (machine : Machine) : BuildsIdle tools commandLine options path sources machine := by
  induction sources generalizing machine with
  | nil => trivial
  | cons names rest ih => exact ⟨idles_prepare h none, fun _ _ _ _ ↦ ih _⟩

variable (place : List Text)

/-- Sources have been built one after the other, which leaves a machine: each was rendered on the
machine as it was then, and the file beside it was put into the tree. -/
inductive Builds : Machine → List (List Text) → Machine → Prop
  | nil (machine : Machine) : Builds machine [] machine
  | cons {machine after : Machine} {names : List Text} {rest : List (List Text)} {text : Text}
      {x : Bool}
      (hrendering : rendering tools commandLine options (sourcePath path names) machine = .ok text)
      (hrest : Builds (machine.withTree (machine.kernel.tree.put (builtPlace place names)
        (.file (Utf8.encode text) x))) rest after) :
      Builds machine (names :: rest) after

end Build

section Directory

variable {tools : Toolkit} {tree : FileTree} {commandLine : CommandLine} {options : RunOptions}
  {path : Text} {place : List Text} {machine : Machine} {names : List Text}

/-- The machine differs in files from one on which the path leads to a directory. -/
structure IsSite (tree : FileTree) (path : Text) (place : List Text) (machine : Machine) :
    Prop where
  agrees : tree.Agrees machine.kernel.tree
  directory : machine.kernel.tree.locate machine.dir path = .ok (place, some .directory)

theorem IsSite.withTree (h : IsSite tree path place machine) {other : FileTree}
    (hagrees : machine.kernel.tree.Agrees other) :
    IsSite tree path place (machine.withTree other) where
  agrees := h.agrees.trans hagrees
  directory := hagrees.locate_directory h.directory

/-- The place of something built ends in a name with the extension. -/
theorem exists_builtPlace_eq (h : Walk.IsSource tree sourceExtension place names) :
    ∃ front last, builtPlace place names = front ++ [last] ∧
      (Path.splitName last).2 = some builtExtension := by
  obtain ⟨inner, last, rfl, -⟩ := h.exists_last
  have hne := (h.isName last (by simp)).ne_nil
  refine ⟨place ++ inner, Path.renamed last builtExtension, ?_, ?_⟩
  · rw [builtPlace, Walk.builtNames_concat, List.append_assoc]
  · rw [Path.splitName_renamed hne isExtension_builtExtension]

theorem builtPlace_ne_nil (h : Walk.IsSource tree sourceExtension place names) :
    builtPlace place names ≠ [] := by
  obtain ⟨front, last, heq, -⟩ := exists_builtPlace_eq h
  exact heq ▸ List.concat_ne_nil last front

/-- No place that ends in a name with another extension is that of something built. -/
theorem builtPlace_ne (h : Walk.IsSource tree sourceExtension place names) (front : List Text)
    {name : Text} (hname : (Path.splitName name).2 ≠ some builtExtension) :
    builtPlace place names ≠ front ++ [name] := by
  obtain ⟨front', last, heq, hlast⟩ := exists_builtPlace_eq h
  rw [heq]
  intro hsame
  obtain rfl : last = name := (List.cons.inj (List.append_inj' hsame rfl).2).1
  exact hname hlast

/-- What is written beside a source is put where the names of the source lead. -/
theorem IsSite.put_of_write (hsite : IsSite tree path place machine) (hsound : tree.IsSound)
    (hsource : Walk.IsSource tree sourceExtension place names) {content : Bytes} {after : FileTree}
    (h : machine.kernel.tree.write machine.dir (builtPath (sourcePath path names)) content =
      .ok after) :
    ∃ x, after = machine.kernel.tree.put (builtPlace place names) (.file content x) := by
  have hplace {result : List Text × Option Entry}
      (hlocate : machine.kernel.tree.locate machine.dir (builtPath (sourcePath path names)) =
        .ok result) (hne : result.2 ≠ some .directory) : result.1 = builtPlace place names :=
    hsource.eq_of_locate_built isExtension_builtExtension hsite.agrees
      (hsound.linksLead.agrees hsite.agrees) hsite.directory hlocate hne
  obtain ⟨q, x, rfl, ⟨hlocate, -⟩ | ⟨c, hlocate⟩⟩ | ⟨-, q, hlocate⟩ := write_eq_ok_iff.mp h
  · obtain rfl : q = _ := hplace hlocate nofun
    exact ⟨x, rfl⟩
  · obtain rfl : q = _ := hplace hlocate nofun
    exact ⟨x, rfl⟩
  · obtain rfl : q = _ := hplace hlocate nofun
    have hnull := (locate_eq_ok_iff.mp hlocate).2.snd_eq.symm
    have hdevice := hsound.eq_devicePlace (hsite.agrees.symm.get?_eq hnull nofun)
    exact absurd hdevice (builtPlace_ne hsource ["dev".toList] (by decide))

/-- **Building a source.** A source fails and changes nothing, or it is rendered and the file beside
it is put into the tree. -/
theorem build_cases (hsite : IsSite tree path place machine) (hsound : tree.IsSound)
    (hsource : Walk.IsSource tree sourceExtension place names)
    (hidle : Idles (prepare tools commandLine options (sourcePath path names) none) machine)
    (output : Text) :
    (∃ failure, BuildFails tools commandLine options path names machine failure ∧
      (build tools commandLine options path names).outcome { machine, output } =
        (.error failure, { machine, output })) ∨
    ∃ text after x printed,
      rendering tools commandLine options (sourcePath path names) machine = .ok text ∧
      machine.kernel.tree.write machine.dir (builtPath (sourcePath path names))
        (Utf8.encode text) = .ok after ∧
      after = machine.kernel.tree.put (builtPlace place names) (.file (Utf8.encode text) x) ∧
      (build tools commandLine options path names).outcome { machine, output } =
        (.ok (), { machine := machine.withTree after, output := printed }) := by
  have hrender : (render tools commandLine options (sourcePath path names) none).outcome
      { machine, output } =
        (rendering tools commandLine options (sourcePath path names) machine,
          { machine, output }) := by
    rw [rendering, render_eq]
    exact process_idle (isLook_prepare tools commandLine options _ none) hidle
  have hbuild : (build tools commandLine options path names).outcome { machine, output } =
      (render tools commandLine options (sourcePath path names) none >>= fun text ↦
        writeFile (builtPath (sourcePath path names)) text >>= fun _ ↦
          if commandLine.verbose then print (' ' :: ' ' :: Text.joinWith ['/'] names ++ ['\n'])
          else pure ()).outcome { machine, output } := rfl
  rw [hbuild, outcome_bind, hrender]
  cases htext : rendering tools commandLine options (sourcePath path names) machine with
  | error failure => exact .inl ⟨failure, buildFails_of_rendering hidle htext, rfl⟩
  | ok text =>
    dsimp only
    rw [outcome_bind, outcome_writeFile]
    cases hwrite : machine.kernel.tree.write machine.dir (builtPath (sourcePath path names))
        (Utf8.encode text) with
    | error fault => exact .inl ⟨.unwritable fault, .writing htext hwrite, rfl⟩
    | ok after =>
      obtain ⟨x, hafter⟩ := hsite.put_of_write hsound hsource hwrite
      refine .inr ?_
      cases commandLine.verbose with
      | true => exact ⟨text, after, x, _, rfl, hwrite, hafter, rfl⟩
      | false => exact ⟨text, after, x, _, rfl, hwrite, hafter, rfl⟩

/-! ### Building all sources -/

/-- **Building sources.** The sources before the first one that fails are built. -/
theorem forM_build_cases (hsite : IsSite tree path place machine) (hsound : tree.IsSound)
    {sources : List (List Text)}
    (hsources : ∀ names ∈ sources, Walk.IsSource tree sourceExtension place names)
    (hidle : BuildsIdle tools commandLine options path sources machine) (output : Text) :
    ∃ built rest after printed result,
      (sources.forM (build tools commandLine options path)).outcome { machine, output } =
        (result, { machine := after, output := printed }) ∧
      sources = built ++ rest ∧ Builds tools commandLine options path place machine built after ∧
      (result = .ok () ∧ rest = [] ∨ ∃ names more failure, result = .error failure ∧
        rest = names :: more ∧ BuildFails tools commandLine options path names after failure) := by
  induction sources generalizing machine output with
  | nil => exact ⟨[], [], machine, output, .ok (), rfl, rfl, .nil machine, .inl ⟨rfl, rfl⟩⟩
  | cons names rest ih =>
    obtain ⟨hsource, hrest⟩ := List.forall_mem_cons.mp hsources
    have hforM : (names :: rest).forM (build tools commandLine options path) =
        (build tools commandLine options path names >>= fun _ ↦
          rest.forM (build tools commandLine options path)) := rfl
    rw [hforM, outcome_bind]
    obtain ⟨failure, hfails, hbuild⟩ | ⟨text, tree', x, printed, htext, hwrite, hput, hbuild⟩ :=
      build_cases hsite hsound hsource hidle.1 output
    · rw [hbuild]
      exact ⟨[], names :: rest, machine, output, .error failure, rfl, rfl, .nil machine,
        .inr ⟨names, rest, failure, rfl, rfl, hfails⟩⟩
    · rw [hbuild]
      obtain ⟨built, more, after, printed', result, hrun, hsplit, hbuilds, hend⟩ :=
        ih (hsite.withTree (agrees_write hwrite)) hrest (hidle.2 text tree' htext hwrite) printed
      exact ⟨names :: built, more, after, printed', result, hrun, by rw [hsplit]; rfl,
        .cons htext (hput ▸ hbuilds), hend⟩

/-! ### What has been built -/

namespace Builds

variable {after : Machine} {built : List (List Text)}

/-- Building changes files only. -/
theorem eq_withTree (h : Builds tools commandLine options path place machine built after) :
    after = machine.withTree after.kernel.tree := by
  induction h with
  | nil => rfl
  | cons _ _ ih => exact ih

/-- Building changes nothing but what is built. -/
theorem get?_eq (h : Builds tools commandLine options path place machine built after)
    {p : List Text}
    (hp : p ∉ built.map (builtPlace place)) :
    after.kernel.tree.get? p = machine.kernel.tree.get? p := by
  induction h with
  | nil => rfl
  | cons _ _ ih =>
    rw [List.map_cons, List.mem_cons, not_or] at hp
    rw [ih hp.2, Machine.tree_withTree, get?_put_of_ne _ _ hp.1]

/-- What is built beside a source is what the source was rendered to on the machine as it was
then. -/
theorem get?_built (h : Builds tools commandLine options path place machine built after)
    (hsources : ∀ names ∈ built, Walk.IsSource tree sourceExtension place names)
    (hnodup : built.Nodup) {earlier later : List (List Text)}
    (hbuilt : built = earlier ++ names :: later) :
    ∃ mid text x, Builds tools commandLine options path place machine earlier mid ∧
      rendering tools commandLine options (sourcePath path names) mid = .ok text ∧
      after.kernel.tree.get? (builtPlace place names) = some (.file (Utf8.encode text) x) := by
  induction h generalizing earlier with
  | nil => simp at hbuilt
  | @cons machine after first rest text x hrendering hrest ih =>
    obtain ⟨hfirst, hothers⟩ := List.forall_mem_cons.mp hsources
    obtain ⟨hnotMem, hnodup⟩ := List.nodup_cons.mp hnodup
    cases earlier with
    | nil =>
      obtain ⟨rfl, rfl⟩ := List.cons.inj hbuilt
      have hlater : builtPlace place first ∉ rest.map (builtPlace place) := by
        intro hmem
        obtain ⟨other, hother, heq⟩ := List.mem_map.mp hmem
        have hsame := (hothers other hother).builtNames_inj hfirst (List.append_cancel_left heq)
        exact hnotMem (hsame ▸ hother)
      refine ⟨machine, text, x, .nil machine, hrendering, ?_⟩
      rw [hrest.get?_eq hlater, Machine.tree_withTree,
        get?_put_self _ _ (builtPlace_ne_nil hfirst)]
    | cons first' earlier =>
      obtain ⟨rfl, hrestEq⟩ := List.cons.inj hbuilt
      obtain ⟨mid, text', x', hmid, hrendering', hget⟩ := ih hothers hnodup hrestEq
      exact ⟨mid, text', x', .cons hrendering hmid, hrendering', hget⟩

end Builds

/-- Sources below a directory have been built in order, up to the first one that failed, if one
did. -/
structure IsMade (tools : Toolkit) (commandLine : CommandLine) (options : RunOptions) (path : Text)
    (place : List Text) (sources : List (List Text)) (before : Machine) (failure : Option Failure)
    (after : Machine) : Prop where
  isSource : ∀ names ∈ sources, Walk.IsSource before.kernel.tree sourceExtension place names
  ordered : sources.Pairwise fun a b ↦ Path.namesBefore a b = true
  nodup : (sources.map fun names ↦ builtPath (sourcePath path names)).Nodup
  disjoint : ∀ names ∈ sources, ∀ other ∈ sources,
    builtPath (sourcePath path names) ≠ sourcePath path other
  onlyFiles : after = before.withTree after.kernel.tree
  exists_built : ∃ built rest, sources = built ++ rest ∧
    (∀ p, p ∉ built.map (builtPlace place) →
      after.kernel.tree.get? p = before.kernel.tree.get? p) ∧
    (∀ earlier names later, built = earlier ++ names :: later →
      ∃ mid text x, Builds tools commandLine options path place before earlier mid ∧
        rendering tools commandLine options (sourcePath path names) mid = .ok text ∧
        after.kernel.tree.get? (builtPlace place names) = some (.file (Utf8.encode text) x)) ∧
    (failure = none ∧ rest = [] ∨ ∃ names more cause, failure = some cause ∧
      rest = names :: more ∧ BuildFails tools commandLine options path names after cause)

end Directory

/-! ### Runs on a directory -/

section Make

variable {tools : Toolkit} {commandLine : CommandLine} {options : RunOptions} {path : Text}
  {place : List Text} {recursive noExec collapse : Bool} {exclude : List Text}
  {sources : List (List Text)} {machine : Machine}

/-- Sources that are built and reported on are built one after the other. -/
theorem buildAll_cases (colored : Bool) (hsound : machine.kernel.tree.IsSound)
    (hplace : machine.kernel.tree.locate machine.dir path = .ok (place, some .directory))
    (hsources : ∀ names ∈ sources,
      Walk.IsSource machine.kernel.tree sourceExtension place names)
    (hidle : BuildsIdle tools commandLine options path sources machine) :
    ∃ built rest after printed result,
      (buildAll tools commandLine colored options path sources).outcome { machine } =
        (result, { machine := after, output := printed }) ∧
      sources = built ++ rest ∧ Builds tools commandLine options path place machine built after ∧
      (result = .ok () ∧ rest = [] ∨ ∃ names more failure, result = .error failure ∧
        rest = names :: more ∧ BuildFails tools commandLine options path names after failure) := by
  cases sources with
  | nil => exact ⟨[], [], machine, _, .ok (), rfl, rfl, .nil machine, .inl ⟨rfl, rfl⟩⟩
  | cons first others =>
    obtain ⟨built, rest, after, printed, result, hrun, hsplit, hbuilds, hend⟩ :=
      forM_build_cases ⟨agrees_refl _, hplace⟩ hsound hsources hidle []
    rw [buildAll, outcome_bind, hrun]
    · obtain ⟨rfl, rfl⟩ | ⟨names, more, failure, rfl, rfl, hfails⟩ := hend
      · exact ⟨built, [], after, _, .ok (), rfl, hsplit, hbuilds, .inl ⟨rfl, rfl⟩⟩
      · exact ⟨built, names :: more, after, printed, .error failure, rfl, hsplit, hbuilds,
          .inr ⟨names, more, failure, rfl, rfl, hfails⟩⟩
    · exact List.cons_ne_nil first others

/-- Sources in order that are built up to the first one that fails are made. -/
theorem Builds.isMade {built rest : List (List Text)} {after : Machine}
    {result : Except Failure Unit}
    (h : Builds tools commandLine options path place machine built after)
    (hsources : ∀ names ∈ sources,
      Walk.IsSource machine.kernel.tree sourceExtension place names)
    (hordered : sources.Pairwise fun a b ↦ Path.namesBefore a b = true)
    (hsplit : sources = built ++ rest)
    (hend : result = .ok () ∧ rest = [] ∨ ∃ names more failure, result = .error failure ∧
      rest = names :: more ∧ BuildFails tools commandLine options path names after failure) :
    IsMade tools commandLine options path place sources machine (failure? result) after := by
  have hnodup : sources.Nodup := hordered.imp fun hbefore heq ↦ by
    rw [heq, Path.namesBefore_iff] at hbefore
    exact lt_irrefl _ hbefore
  refine ⟨hsources, hordered, ?_, ?_, h.eq_withTree, built, rest, hsplit,
    fun p hp ↦ h.get?_eq hp, fun earlier names later hbuilt ↦ ?_, ?_⟩
  · refine hnodup.map_on fun names hnames other hother heq ↦ ?_
    exact (hsources names hnames).builtPath_inj (hsources other hother)
      isExtension_builtExtension heq
  · exact fun names hnames other hother ↦ (hsources names hnames).builtPath_ne
      (hsources other hother) isExtension_builtExtension builtExtension_ne_sourceExtension
  · refine h.get?_built (fun other hother ↦ hsources other ?_) ?_ hbuilt
    · exact hsplit ▸ List.mem_append_left rest hother
    · exact (hsplit ▸ hnodup).of_append_left
  · obtain ⟨rfl, rfl⟩ | ⟨names, more, failure, rfl, rfl, hfails⟩ := hend
    · exact .inl ⟨rfl, rfl⟩
    · exact .inr ⟨names, more, failure, rfl, rfl, hfails⟩

/-- **Runs on a directory.** If the path does not lead to a directory or a pattern is refused,
nothing changes. Otherwise the sources are built in order up to the first one that fails. -/
theorem make_cases (colored : Bool) (hsound : machine.kernel.tree.IsSound)
    (hwalk : tools.WalksOnce machine.kernel.tree)
    (hidle : ∀ place excluded,
      machine.kernel.tree.locate machine.dir path = .ok (place, some .directory) →
      excludes tools exclude = .ok excluded →
      BuildsIdle tools commandLine (runOptions commandLine noExec collapse) path
        (Walk.sources sourceExtension excluded (tools.walk machine.kernel.tree recursive place))
        machine) :
    (∃ failure, (machine.kernel.tree.isDirectory machine.dir path = false ∨
        ∃ e, excludes tools exclude = .error e) ∧
      (make tools commandLine colored path recursive noExec collapse exclude).outcome { machine } =
        (.error failure, { machine })) ∨
    ∃ place excluded after printed result,
      machine.kernel.tree.locate machine.dir path = .ok (place, some .directory) ∧
      excludes tools exclude = .ok excluded ∧
      (make tools commandLine colored path recursive noExec collapse exclude).outcome { machine } =
        (result, { machine := after, output := printed }) ∧
      IsMade tools commandLine (runOptions commandLine noExec collapse) path place
        (Walk.sources sourceExtension excluded (tools.walk machine.kernel.tree recursive place))
        machine (failure? result) after := by
  rw [make_eq, outcome_bind, (isLook_findSources ..).outcome_eq]
  cases hseen : (findSources tools path recursive exclude).seen machine with
  | error failure => exact .inl ⟨failure, refused_of_seen_findSources hseen, rfl⟩
  | ok sources =>
    obtain ⟨place, excluded, hplace, hexcluded, hsources⟩ := exists_of_seen_findSources hseen
    have hidle := hidle place excluded hplace hexcluded
    rw [← hsources] at hidle
    have hisSource : ∀ names ∈ sources,
        Walk.IsSource machine.kernel.tree sourceExtension place names := fun names hnames ↦
      (hwalk recursive place).isSource (hsources ▸ hnames)
    have hordered : sources.Pairwise fun a b ↦ Path.namesBefore a b = true :=
      hsources ▸ (hwalk recursive place).sources_pairwise sourceExtension excluded
    obtain ⟨built, rest, after, printed, result, hrun, hsplit, hbuilds, hend⟩ :=
      buildAll_cases colored hsound hplace hisSource hidle
    exact .inr ⟨place, excluded, after, printed, result, hplace, hexcluded, hrun,
      hsources ▸ hbuilds.isMade hisSource hordered hsplit hend⟩

end Make

/-! ### Single documents -/

end Invocation

/-! ### A desk -/

namespace Desk

open FileTree

/-- A directory with two sources, of which the second one includes a file that there is not, and a
document that is none. -/
def tree : FileTree where
  entries :=
    [(["w".toList], .directory),
      (["w".toList, "a.mdoc".toList], .file (Utf8.encode "a<!-- b -->\n".toList) false),
      (["w".toList, "b.mdoc".toList], .file (Utf8.encode "@[](c)\n".toList) false),
      (["w".toList, "x.md".toList], .file (Utf8.encode "a<!-- b -->c\n".toList) false)]

/-- A machine that works in the directory. -/
def machine : Machine := { kernel := { tree }, dir := ["w".toList] }

theorem isSound_tree : tree.IsSound where
  nodup := by decide
  isName := by decide
  parent := by decide
  linksLead := linksLead_of_forall (by simp [tree])
  device := by decide

end Desk

end Weave
