import CiPipeline.Failure

/-!
# CiPipeline.Report

What the tool prints.

* `Console`           — whether the tool is in debug mode.
* `Report`            — text for the standard output, and text for the error output.
* `Report.written`, `Report.upToDate` — the files of a run that went well.
* `Report.problem`    — an error in words for the user.
* `Report.debug`      — a message that is printed in debug mode only.
* `Report.exception`  — a failure as it is, with its trace in debug mode.
* `Report.failure`    — the report of a run that failed.
-/

namespace CiPipeline

/-- What all reports of a process go through. -/
structure Console where
  debug : Bool := false
  deriving DecidableEq, Repr

structure Report where
  out : String := ""
  err : String := ""
  deriving DecidableEq

namespace Report

def append (a b : Report) : Report := ⟨a.out ++ b.out, a.err ++ b.err⟩

instance : Append Report := ⟨append⟩

def pathLines (label : String) (paths : List Path) : String :=
  String.join (paths.map fun path => label ++ path.toString ++ "\n")

def written (paths : List Path) : Report where
  out := pathLines "WROTE: " paths

def upToDate (paths : List Path) : Report where
  out := pathLines "UP TO DATE: " paths

/-- An empty suggestion is none. -/
def problem (title message : String) (details : List String) (suggestion : Option String) :
    Report where
  err := "\nERROR: " ++ title ++ "\n" ++ message ++ "\n"
    ++ String.join (details.map fun detail => "  " ++ detail ++ "\n")
    ++ match suggestion with
      | none => ""
      | some suggestion => if suggestion.isEmpty then "" else "\n" ++ suggestion ++ "\n"

def debug (console : Console) (message : String) : Report where
  err := if console.debug then "[DEBUG] " ++ message ++ "\n" else ""

/-- A failure that has not come up in a run has no trace but its final line. -/
def exception (console : Console) (happened : Bool) (failure : Failure) : Report where
  err :=
    if console.debug then if happened then failure.trace else failure.finalLine ++ "\n"
    else "Error: " ++ failure.message ++ "\n"

def title (kind : String) : String :=
  if kind = "invalid_model" then "Invalid pipeline model"
  else if kind = "stale_workflow" then "Workflows are out of date"
  else kind

/-- The hint of a diagnostic is the suggestion, all other details are details. -/
def diagnostic (d : Diagnostic) : Report :=
  let details := d.details.entries.filter fun detail => detail.1 != "hint"
  problem (title d.kind) d.message (details.map Diagnostic.detailLine) d.hint

def failure (console : Console) (happened : Bool) (f : Failure) : Report :=
  match f.diagnostic? with
  | some d => diagnostic d ++ debug console d.literal
  | none => exception console happened f

def missingConfig (f : Failure) : Report :=
  problem "Config file not found" f.message [] (some
    ("Create actionsgen_config.py or pass a different path:\n"
      ++ "  actionsgen generate --config my_config.py"))

def invalidConfig (f : Failure) : Report :=
  problem "Invalid config file" f.message [] (some
    ("Define settings in your config file:\n"
      ++ "  from actionsgen import Settings\n\n"
      ++ "  def settings():\n"
      ++ "      return Settings(scala_versions=[\"2.13.1\"])"))

def failedConfig (console : Console) (f : Failure) : Report :=
  problem "Failed to load config" "Could not load settings from the config file" [f.message] none
    ++ if console.debug then exception console true f else {}

/-- The report is chosen by the class of the failure, wherever it comes from. -/
def unresolved (console : Console) (f : Failure) : Report :=
  match f.errorClass with
  | .fileNotFound => missingConfig f
  | .typeError => invalidConfig f
  | .valueError => invalidConfig f
  | .unicodeDecodeError => invalidConfig f
  | _ => failedConfig console f

def missingWorkflow (f : Failure) : Report :=
  problem "Workflow file missing" f.message [] (some
    "Generate the workflows first:\n  actionsgen generate")

end Report

end CiPipeline
