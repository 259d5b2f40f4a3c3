import Weave.Run.CodeRunner
import Weave.Document.BlankLine
import Weave.Document.Comment
import Weave.Document.Contents
import Weave.Document.Include

/-!
# Pipelines

A pipeline passes a document through filters, each taking what the one before it made. The first
filter that fails ends the run.

## Main definitions

* `Weave.Filter`: one transformation of a document.
* `Weave.Pipeline`, `Weave.Pipeline.withWorkspace`, `Weave.Pipeline.run`.
-/

namespace Weave

/-- One transformation of a document. -/
inductive Filter (σ : Type) where
  | comment
  /-- Included files are found from the directory `base`. -/
  | inclusion (base : Text)
  | contents
  | execute (runner : CodeRunner σ)
  | blankLines

namespace Filter

variable {ω σ : Type}

/-- The name of a filter. -/
def name : Filter σ → String
  | comment => "comment"
  | inclusion _ => "include"
  | contents => "toc"
  | execute _ => "exec"
  | blankLines => "blank-lines"

/-- Applies a filter to a document. -/
def run (host : Host ω σ) (filter : Filter σ) (document : Text) :
    Task ω (Except Error Text × Filter σ) := do
  match filter with
  | comment =>
    Task.emitAll (Comment.warnings document)
    return (.ok (Comment.strip document), comment)
  | inclusion base =>
    let world ← Task.world
    let read (target : Text) := host.readText world (Path.join base target)
    return (Include.resolve read document, inclusion base)
  | contents => return (.ok (Contents.insert document), contents)
  | execute runner =>
    let (out, runner) ← runner.run host document
    return (.ok out, execute runner)
  | blankLines => return (.ok (BlankLine.collapse document), blankLines)

end Filter

/-- Filters in the order in which they are applied. -/
structure Pipeline (σ : Type) where
  filters : List (Filter σ) := []
  /-- Every filter is reported before and after it runs. -/
  verbose : Bool := false

namespace Pipeline

variable {ω σ : Type}

/-- The standard pipeline, with included files found from `base` and code run in `workspace`. -/
def withWorkspace (options : RunOptions) (settings : Settings) (base workspace : Text) :
    Pipeline σ where
  filters :=
    [.comment, .inclusion base, .contents, .execute (.new options settings workspace)] ++
      if options.collapseBlankLines then [.blankLines] else []
  verbose := options.verbose

/-- The standard pipeline for documents whose code runs where their included files are. -/
def standard (options : RunOptions) (settings : Settings) (base : Text) : Pipeline σ :=
  withWorkspace options settings base base

/-- The names of the filters, in order. -/
def names (pipeline : Pipeline σ) : List String := pipeline.filters.map Filter.name

/-- The pipeline as it is shown. -/
def label (pipeline : Pipeline σ) : String :=
  let filters := ", ".intercalate (pipeline.names.map fun name ↦ "\"" ++ name ++ "\"")
  "Pipeline \x7b filters: [" ++ filters ++ "], verbose: " ++ toString pipeline.verbose ++ " \x7d"

/-- The report on a filter and the size of its document. -/
def progress (message : String) (name : String) (document : Text) : Event :=
  ⟨.info, message.toList, [("filter", name.toList), ("bytes", Text.ofNat (Utf8.size document))]⟩

/-- Passes a document through filters in order. -/
def runFilters (host : Host ω σ) (verbose : Bool) (document : Text) :
    List (Filter σ) → Task ω (Except Error Text × List (Filter σ))
  | [] => return (.ok document, [])
  | filter :: rest => do
    if verbose then Task.emit (progress "running filter" filter.name document)
    match ← filter.run host document with
    | (.error e, filter) => return (.error e, filter :: rest)
    | (.ok out, filter) =>
      if verbose then Task.emit (progress "filter done" filter.name out)
      let (result, rest) ← runFilters host verbose out rest
      return (result, filter :: rest)

/-- Passes a document through a pipeline. -/
def run (host : Host ω σ) (pipeline : Pipeline σ) (document : Text) :
    Task ω (Except Error Text × Pipeline σ) := do
  let (result, filters) ← runFilters host pipeline.verbose document pipeline.filters
  return (result, { pipeline with filters })

end Pipeline

end Weave
