import CiPipeline.Step

/-!
# CiPipeline.Job

Jobs: steps that run in every cell of a matrix.

* `Job`          — the three fixed axes, further ones, and the jobs that must have finished before.
* `Job.windows`  — whether an operating system list names a Windows runner.
* `Job.write`    — a job as an entry of the table of jobs.
-/

namespace CiPipeline

structure Job where
  id : String
  name : String
  steps : List Step
  cond : Option String := none
  oses : List String := ["ubuntu-latest"]
  scalas : List String := ["2.13.1"]
  javas : List String := ["adopt@1.8"]
  env : Fields String := .empty
  matrixAdds : Fields (List String) := .empty
  needs : List String := []
  deriving DecidableEq

namespace Job

/-- Every step of a job that may land on a Windows runner names its shell. -/
def windows (oses : List String) : Bool :=
  oses.any fun os => Text.occursIn "windows" os

def needsLine (needs : List String) : Text :=
  if needs.isEmpty then [] else "\nneeds: [" ++ Text.joined ", " (needs.map String.toList) ++ "]"

def condLine : Option String → Text
  | none => []
  | some cond => "\nif: " ++ Scalar.write cond

def axis (entry : String × List String) : Text := entry.1 ++ ": " ++ Scalar.flowList entry.2

/-- The axes beside the fixed ones, in the order of the table. -/
def addedAxes (axes : Fields (List String)) : Text :=
  if axes.isEmpty then []
  else "\n" ++ Text.indent 2 (Text.joined "\n" (axes.entries.map axis))

/-- All of the body but the steps, down to the line that announces them. -/
def head (job : Job) (env : Text) : Text :=
  "name: " ++ Scalar.write job.name ++ needsLine job.needs ++ condLine job.cond ++ "\n"
    ++ "strategy:\n"
    ++ "  matrix:\n"
    ++ "    os: " ++ Scalar.flowList job.oses ++ "\n"
    ++ "    scala: " ++ Scalar.flowList job.scalas ++ "\n"
    ++ "    java: " ++ Scalar.flowList job.javas ++ addedAxes job.matrixAdds ++ "\n"
    ++ "runs-on: " ++ matrixOs ++ Text.ledBy "\n" env ++ "\n"
    ++ "steps:\n"

/-- The steps in order, with an empty line between two of them. -/
def writeSteps (buildTool : String) (job : Job) : Except ModelError Text :=
  (job.steps.mapM (Step.write buildTool (windows job.oses))).map (Text.joined "\n\n")

/-- The keys of the environment are looked at before the steps. -/
def write (buildTool : String) (job : Job) : Except ModelError Text :=
  match Block.write "env" job.env with
  | .error e => .error e
  | .ok env =>
    match job.writeSteps buildTool with
    | .error e => .error e
    | .ok steps =>
      .ok (job.id ++ ":\n" ++ Text.indent 1 (job.head env ++ Text.indent 1 steps))

end Job

end CiPipeline
