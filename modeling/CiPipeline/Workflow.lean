import CiPipeline.Job
import CiPipeline.PullRequest

/-!
# CiPipeline.Workflow

Workflows and their documents.

* `Workflow`        — triggers, environment and jobs.
* `Workflow.header` — the six lines of comment that every document starts with.
* `Workflow.write`  — the document, or the first value that cannot be written.
-/

namespace CiPipeline

structure Workflow where
  name : String
  branches : List String
  activities : List PullRequest.Activity
  env : Fields String
  jobs : List Job
  buildTool : String := "sbt"
  deriving DecidableEq

namespace Workflow

def header : List String :=
  ["# This file was automatically generated by actionsgen using the",
    "# `actionsgen generate` command. You should add and commit this file to",
    "# your git repository. It goes without saying that you shouldn't edit",
    "# this file by hand! Instead, if you wish to make changes, you should",
    "# change your actionsgen configuration to revise the workflow description",
    "# to meet your needs, then regenerate this file."]

theorem length_header : header.length = 6 := rfl

/-- Each line of the header is a comment, and one line. -/
theorem header_comments :
    ∀ line ∈ header.map String.toList, line.head? = some '#' ∧ '\n' ∉ line := by
  decide +kernel

/-- The activities of the pull request trigger; the standard ones go without saying. -/
def activityLine (activities : List PullRequest.Activity) : Text :=
  if PullRequest.Activity.isStandard activities then []
  else
    let names := activities.map fun activity => activity.name.toList
    "\n" ++ Text.indent 2 ("types: [" ++ Text.joined ", " names ++ "]")

/-- All of the document but the jobs, down to the line that announces them. -/
def head (workflow : Workflow) (env : Text) : Text :=
  Text.joined "\n" (header.map String.toList) ++ "\n"
    ++ "\n"
    ++ "name: " ++ Scalar.write workflow.name ++ "\n"
    ++ "\n"
    ++ "on:\n"
    ++ "  pull_request:\n"
    ++ "    branches: " ++ Scalar.flowList workflow.branches
    ++ activityLine workflow.activities ++ "\n"
    ++ "  push:\n"
    ++ "    branches: " ++ Scalar.flowList workflow.branches ++ "\n"
    ++ "\n"
    ++ Text.endedBy "\n\n" env
    ++ "jobs:\n"

/-- The jobs in order, with an empty line between two of them. -/
def writeJobs (workflow : Workflow) : Except ModelError Text :=
  (workflow.jobs.mapM (Job.write workflow.buildTool)).map (Text.joined "\n\n")

/-- The keys of the environment are looked at before the jobs. -/
def write (workflow : Workflow) : Except ModelError Text :=
  match Block.write "env" workflow.env with
  | .error e => .error e
  | .ok env =>
    match workflow.writeJobs with
    | .error e => .error e
    | .ok jobs => .ok (workflow.head env ++ Text.indent 1 jobs)

end Workflow

end CiPipeline
