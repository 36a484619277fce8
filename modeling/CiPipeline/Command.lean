import CiPipeline.Report
import CiPipeline.Workspace

/-!
# CiPipeline.Command

The two commands of the tool.

* `Command`, `Command.Options` — what is asked for.
* `Command.run`                — the workspace after the command, and how it ended.
-/

namespace CiPipeline

inductive Command where
  | generate
  | check
  deriving DecidableEq, Repr

structure Command.Options where
  debug : Bool := false
  root : Option String := none
  config : Option String := none
  deriving DecidableEq, Repr

/-- The console that a command is run with. -/
def Command.Options.console (options : Options) : Console where
  debug := options.debug

structure Command.Outcome where
  exit : Nat
  report : Report
  deriving DecidableEq

namespace Command

/-- A root that is given is taken as it is; an empty one counts as none. -/
def rootOf (space : Workspace) (options : Options) : Except Failure Path :=
  match options.root with
  | none => space.projectRoot "."
  | some root =>
    if root.isEmpty then space.projectRoot "." else space.absolute (Path.parse root)

/-- The console is asked for again once the files are written or compared. -/
def execute (space : Workspace) (root : Path) (settings : Settings) :
    Command → Workspace × Outcome
  | generate =>
    let (tree, result) := WorkflowFiles.generate space.current root settings space.tree
    let (space, console) := Workspace.askConsole { space with tree := tree }
    match result with
    | .ok paths => (space, ⟨0, .written paths⟩)
    | .error f => (space, ⟨1, .failure console true f⟩)
  | check =>
    let (tree, result) := WorkflowFiles.check space.current root settings space.tree
    let (space, console) := Workspace.askConsole { space with tree := tree }
    match result with
    | .ok paths => (space, ⟨0, .upToDate paths⟩)
    | .error f =>
      if f.errorClass = .fileNotFound then (space, ⟨1, .missingWorkflow f⟩)
      else (space, ⟨1, .failure console true f⟩)

/-- The console is set first, so that the reports go through the one of this command. A failure to
find the root is not reported but handed on as it is; any other one becomes a report and an exit
code. -/
def run (space : Workspace) (options : Options) (command : Command) :
    Workspace × Except Failure Outcome :=
  let (space, console) := (space.setConsole options.console).askConsole
  match rootOf space options with
  | .error f => (space, .error f)
  | .ok root =>
    let opening := Report.debug console ("Project root: " ++ root.toString)
    let after := space.afterResolving root options.config
    match space.resolveSettings root options.config with
    | .error f => (after, .ok ⟨1, opening ++ .unresolved console f⟩)
    | .ok settings =>
      let (after, outcome) := execute after root settings command
      (after, .ok { outcome with report := opening ++ outcome.report })

end Command

end CiPipeline
