import CiPipeline.ModelError
import CiPipeline.Table
import CiPipeline.Text.Literal

/-!
# CiPipeline.Diagnostic

Structured reports of what is wrong with a workflow.

* `Diagnostic`            — a kind, a message, and named details.
* `Diagnostic.invalidKey` — a value of the description cannot be written.
* `Diagnostic.stale`      — a file is not what would be generated.
* `Diagnostic.summary`    — the whole of it in lines.
* `Diagnostic.literal`    — the whole of it on one line.
-/

namespace CiPipeline

structure Diagnostic where
  kind : String
  message : String
  details : Fields String := .empty
  deriving DecidableEq

namespace Diagnostic

def invalidKey (key : String) : Diagnostic where
  kind := "invalid_model"
  message := (ModelError.invalidKey key).message
  details := .ofList [("key", key)]

def stale (file : String) : Diagnostic where
  kind := "stale_workflow"
  message := file ++ " does not contain contents that would have been generated "
    ++ "by actionsgen; try running `actionsgen generate`"
  details :=
    .ofList [("file", file), ("hint", "Run `actionsgen generate` and commit the result.")]

/-- What to do about it, if that is known. -/
def hint (diagnostic : Diagnostic) : Option String := diagnostic.details.get? "hint"

def detailLine (detail : String × String) : String := detail.1 ++ "=" ++ detail.2

def summary (diagnostic : Diagnostic) : String :=
  "\n".intercalate
    ((diagnostic.kind ++ ": " ++ diagnostic.message) :: diagnostic.details.entries.map detailLine)

def detailLiteral (detail : String × String) : String :=
  Literal.write detail.1 ++ ": " ++ Literal.write detail.2

def literal (diagnostic : Diagnostic) : String :=
  let details := diagnostic.details.entries.map detailLiteral
  "WorkflowError(kind=" ++ Literal.write diagnostic.kind
    ++ ", message=" ++ Literal.write diagnostic.message
    ++ ", details=\x7b" ++ ", ".intercalate details ++ "\x7d)"

end Diagnostic

end CiPipeline
