import CiPipeline.Artifact
import CiPipeline.Path
import CiPipeline.Settings
import CiPipeline.Windows

/-!
# CiPipeline.Pipeline

The standard pipeline: a job that builds and tests, and one that publishes what was built.

* `Pipeline.normaliseTarget` — a target directory as seen from the project root.
* `Pipeline.preamble`        — the steps that both jobs start with.
* `Pipeline.publicationCond` — when the publish job runs.
* `Pipeline.buildJob`, `Pipeline.publishJob` — the two jobs.
* `Pipeline.workflow`        — the workflow of the project at a location.
* `Pipeline.document`        — its document.
-/

namespace CiPipeline
namespace Pipeline

/-- An absolute target becomes the way to it from the root; a relative one stays where it is. -/
def normaliseTarget (root : Location) (target : String) : String :=
  let path := Path.parse target
  if path.isAbsolute then (Path.relative root (path.resolve [])).toString else path.toString

def targets (root : Location) (settings : Settings) : List String :=
  settings.targetDirs.map (normaliseTarget root)

def cacheSteps (settings : Settings) : List Step :=
  settings.cacheSteps.getD (Cache.steps settings.dependencyPatterns)

def uploadSteps (root : Location) (settings : Settings) : List Step :=
  settings.uploadSteps.getD (Artifact.uploads (targets root settings))

def downloadSteps (root : Location) (settings : Settings) : List Step :=
  settings.downloadSteps.getD (Artifact.downloads (targets root settings) settings.scalaVersions)

/-- The fixes for Windows runners are there only if such a runner is configured. -/
def preamble (settings : Settings) : List Step :=
  let onWindows (steps : List Step) := if Job.windows settings.oses then steps else []
  onWindows Windows.lineEnds ++ [Step.checkout, Step.setupScala] ++ onWindows Windows.symlinks
    ++ cacheSteps settings

/-- Never for a pull request, and only on one of the configured branches and tags. -/
def publicationCond (settings : Settings) : Except ModelError String :=
  match settings.publishBranches.mapM (RefPredicate.expression "github.ref") with
  | .error e => .error e
  | .ok branches =>
    let cond := "github.event_name != 'pull_request' && (" ++ " || ".intercalate branches ++ ")"
    match settings.publishCond with
    | none => .ok cond
    | some further => .ok (cond ++ " && (" ++ further ++ ")")

/-- Whether some other job consumes what the build job produces. -/
def handsOver (settings : Settings) : Bool :=
  !settings.publishBranches.isEmpty || !settings.addedJobs.isEmpty

def buildJob (root : Location) (settings : Settings) : Job where
  id := "build"
  name := "Build and Test"
  steps := preamble settings ++ settings.buildPreamble ++ settings.checkPreamble
    ++ [settings.checkStep, settings.build]
    ++ if handsOver settings then uploadSteps root settings else []
  oses := settings.oses
  scalas := settings.scalaVersions
  javas := settings.javaVersions
  matrixAdds := settings.matrixAdditions

/-- It runs once, for the version to publish, on the standard runner. -/
def publishJob (root : Location) (settings : Settings) : Except ModelError (Option Job) :=
  if settings.publishBranches.isEmpty then .ok none
  else match publicationCond settings with
    | .error e => .error e
    | .ok cond =>
      match settings.primaryScalaVersion with
      | .error e => .error e
      | .ok version =>
        .ok (some {
          id := "publish"
          name := "Publish Artifacts"
          steps := preamble settings ++ downloadSteps root settings ++ settings.publishPreamble
            ++ [settings.publish]
          cond := some cond
          scalas := [version]
          needs := ["build"] })

def jobs (root : Location) (settings : Settings) : Except ModelError (List Job) :=
  match settings.jobs with
  | some jobs => .ok jobs
  | none =>
    (publishJob root settings).map fun publish =>
      buildJob root settings :: publish.toList ++ settings.addedJobs

def workflow (root : Location) (settings : Settings) : Except ModelError Workflow :=
  (jobs root settings).map fun jobs =>
    { name := settings.workflowName
      branches := settings.targetBranches
      activities := settings.activities
      env := settings.env
      jobs := jobs
      buildTool := settings.buildTool }

def document (root : Location) (settings : Settings) : Except ModelError Text :=
  match workflow root settings with
  | .error e => .error e
  | .ok workflow => workflow.write

end Pipeline
end CiPipeline
