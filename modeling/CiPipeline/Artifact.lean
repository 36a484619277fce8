import CiPipeline.Step

/-!
# CiPipeline.Artifact

Steps that hand target directories from the build job over to the publish job.

* `Artifact.sanitise` — a target directory as part of an artifact name.
* `Artifact.name`     — the name of the artifact of a target directory, for a Scala version.
* `Artifact.uploads`  — one upload per target directory, in the current cell of the matrix.
* `Artifact.downloads` — one download per target directory and Scala version.

Both end with the target directory of the build definition itself.
-/

namespace CiPipeline
namespace Artifact

/-- An artifact name holds none of these. -/
def forbidden : List Char := ['\\', '/', '"', ':', '<', '>', '|', '*', '?']

def replaced (target : Text) (c : Char) : Text := target.map fun d => if d = c then '_' else d

def sanitise (target : Text) : Text := forbidden.foldl replaced target

def name (target version : String) : String :=
  "target-" ++ matrixOs ++ "-" ++ version ++ "-" ++ matrixJava ++ "-"
    ++ String.ofList (sanitise target)

def step (action label artifact path : String) : Step where
  action := .use "actions" action "v1" (.ofList [("name", artifact), ("path", path)])
  name := some label

def label (verb target version : String) : String :=
  verb ++ " target directory '" ++ target ++ "' (" ++ version ++ ")"

def definitionTarget : String := "project/target"

def definitionName : String := "target-" ++ matrixOs ++ "-" ++ matrixJava ++ "-project_target"

def definitionStep (action verb : String) : Step :=
  step action (verb ++ " target directory '" ++ definitionTarget ++ "'") definitionName
    definitionTarget

def upload (target : String) : Step :=
  step "upload-artifact" (label "Upload" target matrixScala) (name target matrixScala) target

def download (target version : String) : Step :=
  step "download-artifact" (label "Download" target version) (name target version) target

def uploads (targets : List String) : List Step :=
  targets.map upload ++ [definitionStep "upload-artifact" "Upload"]

/-- The versions vary faster than the target directories. -/
def downloads (targets versions : List String) : List Step :=
  (targets.flatMap fun target => versions.map (download target))
    ++ [definitionStep "download-artifact" "Download"]

end Artifact
end CiPipeline
