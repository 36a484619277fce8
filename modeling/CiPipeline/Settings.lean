import CiPipeline.Ref
import CiPipeline.Workflow

/-!
# CiPipeline.Settings

Everything the standard pipeline is assembled from.

* `Settings`                     — all of it, with defaults.
* `Settings.primaryScalaVersion` — the Scala version that is published.
-/

namespace CiPipeline

structure Settings where
  workflowName : String := "Continuous Integration"
  buildTool : String := "sbt"
  matrixAdditions : Fields (List String) := .empty
  buildPreamble : List Step := []
  build : Step := { action := .sbt ["test"], name := some "Build project" }
  /-- Puts the command line tool in place for `checkStep`. -/
  checkPreamble : List Step :=
    [Step.setupPython,
      { action := .run ["pip install actionsgen"], name := some "Install actionsgen" }]
  checkStep : Step :=
    { action := .run ["actionsgen check"], name := some "Check that workflows are up to date" }
  publishPreamble : List Step := []
  publish : Step := { action := .sbt ["+publish"], name := some "Publish project" }
  /-- What is published from; without any predicate there is no publish job. -/
  publishBranches : List RefPredicate := [.equals (.branch "master")]
  /-- A further condition on publishing. -/
  publishCond : Option String := none
  javaVersions : List String := ["adopt@1.8"]
  scalaVersions : List String := ["2.13.1"]
  /-- The version to publish, if it is not the first one. -/
  scalaVersion : Option String := none
  oses : List String := ["ubuntu-latest"]
  dependencyPatterns : List String := ["**/*.sbt", "project/build.properties"]
  targetBranches : List String := ["*"]
  activities : List PullRequest.Activity := PullRequest.Activity.standard
  env : Fields String := .ofList [("GITHUB_TOKEN", "$\x7b\x7b secrets.GITHUB_TOKEN \x7d\x7d")]
  addedJobs : List Job := []
  /-- Absolute, or relative to the project root. -/
  targetDirs : List String := ["target"]
  /-- The last four take the place of what the pipeline puts together from the rest. -/
  cacheSteps : Option (List Step) := none
  uploadSteps : Option (List Step) := none
  downloadSteps : Option (List Step) := none
  jobs : Option (List Job) := none
  deriving DecidableEq

namespace Settings

def primaryScalaVersion (settings : Settings) : Except ModelError String :=
  match settings.scalaVersion, settings.scalaVersions with
  | some version, _ => .ok version
  | none, version :: _ => .ok version
  | none, [] => .error .noScalaVersion

end Settings

end CiPipeline
