import Weave.Shell.Wildcard
import Weave.Utility.Basic

/-!
# Utilities on files

The utilities that list, make, remove and rename files, and those that take paths apart.

## Main definitions

* `Weave.Utility.ls`, `Weave.Utility.mkdir`, `Weave.Utility.rmdir`, `Weave.Utility.rm`,
  `Weave.Utility.touch`, `Weave.Utility.cp`, `Weave.Utility.mv`, `Weave.Utility.ln`.
* `Weave.Utility.chmod`, `Weave.Utility.readlink`, `Weave.Utility.realpath`, `Weave.Utility.find`.
* `Weave.Utility.basename`, `Weave.Utility.dirname`.
-/

namespace Weave.Utility

/-- Octets in the order of their bytes. -/
def byteOrder (names : List Octets) : List Octets :=
  names.mergeSort fun a b ↦ decide (¬b.map Char.toNat < a.map Char.toNat)

/-- Octets in single quotes. -/
def quoted (octets : Octets) : Octets := '\x27' :: octets ++ ['\x27']

/-- The sign that is put after a name in a list to tell what it stands for. -/
def sign (arguments : Arguments) : FileTree.Entry → Octets
  | .directory => if arguments.has 'p' || arguments.has 'F' then ['/'] else []
  | .link _ => if arguments.has 'F' then ['@'] else []
  | .file _ true => if arguments.has 'F' then ['*'] else []
  | _ => []

/-- Lists the entries of directories, one a line. -/
def ls : Utility := fun inheritance args ↦ do
  let arguments := Arguments.read [] args
  let operands := if arguments.operands.isEmpty then [['.']] else arguments.operands
  let tree ← Kernel.files
  let order (names : List Octets) : List Octets :=
    if arguments.has 'r' then (byteOrder names).reverse else byteOrder names
  let entries (place : List Text) : List Octets :=
    let children := (tree.children place).map fun (name, entry) ↦ (Octets.ofText name, entry)
    let dots := [(['.'], .directory), (['.', '.'], .directory)]
    let entries := if arguments.has 'a' then dots ++ children else children
    let shown := entries.filter fun (name, _) ↦
      arguments.has 'a' || arguments.has 'A' || name.head? ≠ some '.'
    (order (shown.map Prod.fst)).map fun name ↦
      name ++ (((shown.lookup name).map (sign arguments)).getD [])
  let lines (names : List Octets) : Octets := names.flatMap (· ++ ['\n'])
  let mut sound := true
  let mut files := []
  let mut directories := []
  for operand in order operands do
    match tree.locate inheritance.dir (Octets.toText operand) with
    | .ok (place, some .directory) =>
      if arguments.has 'd' then files := files ++ [operand]
      else directories := directories ++ [(operand, entries place)]
    | .ok (_, some _) => files := files ++ [operand]
    | .ok (_, none) =>
      inheritance.complain ("ls: cannot access ".toList ++ quoted operand ++
        ": No such file or directory".toList)
      sound := false
    | .error fault =>
      inheritance.complain ("ls: cannot access ".toList ++ quoted operand ++ ": ".toList ++
        Octets.ofText fault.label)
      sound := false
  let headed := 1 < operands.length
  let blocks := directories.map fun (operand, names) ↦
    (if headed then operand ++ ":\n".toList else []) ++ lines names
  let blocks := if files.isEmpty then blocks else lines files :: blocks
  inheritance.print (Text.joinWith ['\n'] blocks)
  return if sound then 0 else 2

/-- Reports that something could not be done with an operand. -/
def cannot (inheritance : Inheritance) (utility action : String) (operand : Octets)
    (fault : FileFault) : Proc Unit :=
  inheritance.complain (utility.toList ++ ": ".toList ++ action.toList ++ ' ' :: quoted operand ++
    ": ".toList ++ Octets.ofText fault.label)

/-- Does something to the files for every operand; the outcome says whether all was well. -/
def forOperands (inheritance : Inheritance) (utility action : String) (operands : List Octets)
    (change : FileTree → Text → Except FileFault FileTree) : Proc Nat := do
  let mut sound := !operands.isEmpty
  if operands.isEmpty then inheritance.complain (utility ++ ": missing operand").toList
  for operand in operands do
    match change (← Kernel.files) (Octets.toText operand) with
    | .ok tree => Kernel.setFiles tree
    | .error fault =>
      cannot inheritance utility action operand fault
      sound := false
  return statusOf sound

/-- The tree with a new directory. -/
def makeDirectory (dir : List Text) (parents : Bool) (tree : FileTree) (path : Text) :
    Except FileFault FileTree := do
  if parents then
    let start := if Path.isAbsolute path then [] else dir
    let names := Path.properNames path
    (List.range names.length).foldlM (fun tree n ↦ do
      match ← tree.follow true 40 start (names.take (n + 1)) with
      | (place, none) => return tree.put place .directory
      | (_, some .directory) => return tree
      | (_, some _) => throw .alreadyExists) tree
  else
    match ← tree.locate dir path with
    | (place, none) => return tree.put place .directory
    | (_, some _) => throw .alreadyExists

/-- Makes directories. -/
def mkdir : Utility := fun inheritance args ↦ do
  let arguments := Arguments.read ['m'] args
  forOperands inheritance "mkdir" "cannot create directory" arguments.operands
    (makeDirectory inheritance.dir (arguments.has 'p'))

/-- The tree without an empty directory. -/
def removeDirectory (dir : List Text) (tree : FileTree) (path : Text) :
    Except FileFault FileTree := do
  match ← tree.locateWith false dir path with
  | (_, none) => throw .notFound
  | (place, some .directory) =>
    if (tree.children place).isEmpty then return tree.remove place else throw .notEmpty
  | (_, some _) => throw .notDirectory

/-- Removes empty directories. -/
def rmdir : Utility := fun inheritance args ↦ do
  forOperands inheritance "rmdir" "failed to remove" (Arguments.read [] args).operands
    (removeDirectory inheritance.dir)

/-- The tree without a file, or without a directory and all that it holds. -/
def removeFile (dir : List Text) (recursive forced : Bool) (tree : FileTree) (path : Text) :
    Except FileFault FileTree := do
  match tree.locateWith false dir path with
  | .error fault => if forced then return tree else throw fault
  | .ok (_, none) => if forced then return tree else throw .notFound
  | .ok (place, some .directory) =>
    if recursive then return tree.remove place else throw .isDirectory
  | .ok (place, some _) => return tree.remove place

/-- Removes files. -/
def rm : Utility := fun inheritance args ↦ do
  let arguments := Arguments.read [] args
  if arguments.has 'f' && arguments.operands.isEmpty then return 0
  forOperands inheritance "rm" "cannot remove" arguments.operands
    (removeFile inheritance.dir (arguments.has 'r' || arguments.has 'R') (arguments.has 'f'))

/-- Makes files that are missing. -/
def touch : Utility := fun inheritance args ↦ do
  let arguments := Arguments.read [] args
  forOperands inheritance "touch" "cannot touch" arguments.operands fun tree path ↦ do
    match ← tree.locate inheritance.dir path with
    | (place, none) => return if arguments.has 'c' then tree else tree.put place (.file [] false)
    | (_, some _) => return tree

/-- Where an operand is put by a utility whose last operand is the target: in the target if that is
a directory. -/
def targetPath (tree : FileTree) (dir : List Text) (target path : Text) : Text :=
  if tree.isDirectory dir target then
    match Path.fileName? path with
    | some name => Path.join target name
    | none => target
  else target

/-- The tree with what one place holds put at another place as well. -/
def copyPlace (tree : FileTree) (source target : List Text) : FileTree :=
  tree.entries.foldl (fun tree (place, entry) ↦
    if source.isPrefixOf place then tree.put (target ++ place.drop source.length) entry
    else tree) tree

/-- Copies files. -/
def cp : Utility := fun inheritance args ↦ do
  let arguments := Arguments.read [] args
  let recursive := arguments.has 'r' || arguments.has 'R' || arguments.has 'a'
  let target := Octets.toText (arguments.operands.getLast?.getD [])
  forOperands inheritance "cp" "cannot stat" arguments.operands.dropLast fun tree path ↦ do
    match ← tree.locate inheritance.dir path with
    | (_, none) => throw .notFound
    | (source, some .directory) =>
      if !recursive then throw .isDirectory
      else
        let (place, _) ← tree.locate inheritance.dir (targetPath tree inheritance.dir target path)
        return copyPlace tree source place
    | (_, some (.file content executable)) =>
      match ← tree.locate inheritance.dir (targetPath tree inheritance.dir target path) with
      | (place, none) => return tree.put place (.file content executable)
      | (place, some (.file _ old)) => return tree.put place (.file content old)
      | (_, some .null) => return tree
      | (_, some _) => throw .isDirectory
    | (_, some _) => return tree

/-- Renames files. -/
def mv : Utility := fun inheritance args ↦ do
  let arguments := Arguments.read [] args
  let target := Octets.toText (arguments.operands.getLast?.getD [])
  forOperands inheritance "mv" "cannot stat" arguments.operands.dropLast fun tree path ↦ do
    match ← tree.locateWith false inheritance.dir path with
    | (_, none) => throw .notFound
    | (source, some _) =>
      let goal := targetPath tree inheritance.dir target path
      let (place, _) ← tree.locateWith false inheritance.dir goal
      if source = place then return tree
      else return (copyPlace (tree.remove place) source place).remove source

/-- Makes links. -/
def ln : Utility := fun inheritance args ↦ do
  let arguments := Arguments.read [] args
  match arguments.operands with
  | [source, target] =>
    forOperands inheritance "ln" "failed to create link" [target] fun tree path ↦ do
      let text := Octets.toText source
      let goal := targetPath tree inheritance.dir path text
      let tree ←
        if arguments.has 'f' then removeFile inheritance.dir false true tree goal else pure tree
      match ← tree.locateWith false inheritance.dir goal with
      | (place, none) =>
        if arguments.has 's' then return tree.put place (.link text)
        else
          match ← tree.locate inheritance.dir text with
          | (_, some entry) => return tree.put place entry
          | (_, none) => throw .notFound
      | (_, some _) => throw .alreadyExists
  | _ => return 1

/-! ### Permissions and links -/

/-- Whether a mode lets a file be run, given whether it could be before. -/
def executableAfter? (mode : Octets) (before : Bool) : Option Bool :=
  match Text.splitOnce? (fun c ↦ c = '+' || c = '-' || c = '=') mode with
  | some (who, permissions) =>
    let named := permissions.contains 'x'
    let operator := (mode.drop who.length).head?
    if !(who ++ permissions).all ("ugoarwxXst".toList.contains ·) then none
    else if operator = some '+' then some (before || named)
    else if operator = some '-' then some (before && !named)
    else some named
  | none =>
    if mode.isEmpty || !mode.all fun c ↦ '0' ≤ c && c ≤ '7' then none
    else some (mode.any fun c ↦ c.toNat % 2 = 1)

/-- Changes who may run files. -/
def chmod : Utility := fun inheritance args ↦ do
  let operands := if args.head? = some ['-', 'R'] then args.drop 1 else args
  let mode := operands.headD []
  if (executableAfter? mode false).isNone then
    inheritance.complain ("chmod: invalid mode: ".toList ++ quoted mode)
    return 1
  else
    forOperands inheritance "chmod" "cannot access" (operands.drop 1) fun tree path ↦ do
      match ← tree.locate inheritance.dir path with
      | (place, some (.file content before)) =>
        return tree.put place (.file content ((executableAfter? mode before).getD before))
      | (_, some _) => return tree
      | (_, none) => throw .notFound

/-- Prints the places that paths lead to; the last name may be missing. -/
def realpath : Utility := fun inheritance args ↦ do
  let tree ← Kernel.files
  let mut sound := true
  for operand in (Arguments.read [] args).operands do
    match tree.locate inheritance.dir (Octets.toText operand) with
    | .ok (place, _) => inheritance.print (Octets.ofText (Path.ofNames place) ++ ['\n'])
    | .error fault =>
      complainOf inheritance "realpath" operand fault
      sound := false
  return statusOf sound

/-- Prints the targets of links, or the places that paths lead to. -/
def readlink : Utility := fun inheritance args ↦ do
  let arguments := Arguments.read [] args
  if arguments.has 'f' then realpath inheritance args
  else
    let tree ← Kernel.files
    let targets := arguments.operands.map fun operand ↦
      match tree.locateWith false inheritance.dir (Octets.toText operand) with
      | .ok (_, some (.link target)) => some (Octets.ofText target)
      | _ => none
    inheritance.print (targets.flatMap fun target ↦ target.elim [] (· ++ ['\n']))
    return statusOf (targets.all Option.isSome)

/-! ### Searches -/

/-- Which entries a search is for. -/
structure Search where
  depth : Option Nat := none
  kind : Option Octets := none
  name : Option Pattern := none

/-- The search that some arguments ask for. -/
def Search.read? : List Octets → Option Search
  | [] => some {}
  | condition :: value :: rest => do
    let search ← Search.read? rest
    match String.ofList condition with
    | "-name" =>
      let pattern := Shell.Wildcard.ofGlyphs (Shell.Glyph.ofOctets false value)
      return { search with name := some pattern }
    | "-type" => return { search with kind := some value }
    | "-maxdepth" => return { search with depth := some (← Octets.toNat? value) }
    | _ => none
  | _ => none

/-- The letter for what an entry is. -/
def kindOf : FileTree.Entry → Octets
  | .directory => ['d']
  | .file .. => ['f']
  | .link _ => ['l']
  | .null => ['c']

/-- Prints the entries at and below its operands that a search is for. -/
def find : Utility := fun inheritance args ↦ do
  let operands := args.takeWhile fun arg ↦ arg.head? ≠ some '-'
  match Search.read? (args.drop operands.length) with
  | none =>
    inheritance.complain "find: unknown predicate".toList
    return 1
  | some search =>
    let tree ← Kernel.files
    let mut sound := true
    for operand in if operands.isEmpty then [['.']] else operands do
      match tree.locateWith false inheritance.dir (Octets.toText operand) with
      | .ok (top, some entry) =>
        let below := tree.entries.filter fun (place, _) ↦ top.isPrefixOf place && top ≠ place
        let found := ((top, entry) :: below).filter fun (place, entry) ↦
          search.depth.all (place.length - top.length ≤ ·) && search.kind.all (· = kindOf entry) &&
            search.name.all (·.isMatch (Octets.ofText (place.getLastD [])))
        inheritance.print (found.flatMap fun (place, _) ↦
          let names := (place.drop top.length).flatMap fun name ↦ '/' :: Octets.ofText name
          operand ++ names ++ ['\n'])
      | _ =>
        complainOf inheritance "find" operand .notFound
        sound := false
    return statusOf sound

/-! ### Parts of paths -/

/-- The last name of a path as it is written, without slashes at its end. -/
def lastName (path : Octets) : Octets :=
  let trimmed := Text.trimEndWhere (· = '/') path
  if trimmed.isEmpty && !path.isEmpty then ['/']
  else (Text.splitWhere (· = '/') trimmed).getLast?.getD []

/-- Prints the last name of a path, without a suffix if one is given. -/
def basename : Utility := fun inheritance args ↦ do
  match (Arguments.read [] args).operands with
  | [path] =>
    inheritance.print (lastName path ++ ['\n'])
    return 0
  | [path, suffix] =>
    let name := lastName path
    let kept := name.take (name.length - suffix.length)
    inheritance.print ((if !kept.isEmpty && kept ++ suffix = name then kept else name) ++ ['\n'])
    return 0
  | [] =>
    inheritance.complain "basename: missing operand".toList
    return 1
  | _ :: _ :: operand :: _ =>
    inheritance.complain ("basename: extra operand ".toList ++ quoted operand)
    return 1

/-- Prints paths without their last names. -/
def dirname : Utility := fun inheritance args ↦ do
  let upper (path : Octets) : Octets :=
    let trimmed := Text.trimEndWhere (· = '/') path
    let head := Text.trimEndWhere (· ≠ '/') trimmed
    let above := Text.trimEndWhere (· = '/') head
    if trimmed.isEmpty then (if path.isEmpty then ['.'] else ['/'])
    else if head.isEmpty then ['.']
    else if above.isEmpty then ['/'] else above
  inheritance.print ((Arguments.read [] args).operands.flatMap fun path ↦ upper path ++ ['\n'])
  return 0

end Weave.Utility
