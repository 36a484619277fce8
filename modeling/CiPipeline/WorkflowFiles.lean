import CiPipeline.CleanWorkflow
import CiPipeline.Failure
import CiPipeline.Pipeline
import CiPipeline.Text.LineEnd

/-!
# CiPipeline.WorkflowFiles

The two workflow files of a project, kept in step with its settings.

* `WorkflowFiles.expected` — the text that each file should hold.
* `WorkflowFiles.generate` — writes the files.
* `WorkflowFiles.check`    — compares the files with what `generate` would write, up to line ends.

Both render everything first: a description that cannot be written leaves the tree as it is.
-/

namespace CiPipeline
namespace WorkflowFiles

def ciFile : String := "ci.yml"

def cleanFile : String := "clean.yml"

def expected (root : Location) (settings : Settings) : Except ModelError (List (String × Text)) :=
  (Pipeline.document root settings).map fun document =>
    [(ciFile, document), (cleanFile, CleanWorkflow.document)]

/-- Where the host looks for workflows. -/
def directory (root : Path) : Path := (root.child ".github").child "workflows"

def writeText (tree : FileTree) (current : Location) (path : WrittenPath) (text : Text) :
    Except Failure FileTree :=
  (tree.write current path (Utf8.encode text)).mapError .system

/-- Reading as text already makes the line ends alike, before the lines are made normal. -/
def readLines (tree : FileTree) (current : Location) (path : WrittenPath) : Except Failure Text :=
  match tree.read current path with
  | .error e => .error (.system e)
  | .ok content =>
    match Utf8.decode content with
    | .error fault => .error (.undecodable fault)
    | .ok text => .ok (Text.normalLines (Text.plainEnds text))

/-- In the order of the list; a failure leaves what is written so far. -/
def writeAll (current : Location) (place : Path) :
    List (String × Text) → FileTree → FileTree × Except Failure (List Path)
  | [], tree => (tree, .ok [])
  | (name, text) :: rest, tree =>
    match writeText tree current (place.child name) text with
    | .error e => (tree, .error e)
    | .ok tree =>
      match writeAll current place rest tree with
      | (tree, .error e) => (tree, .error e)
      | (tree, .ok paths) => (tree, .ok (place.child name :: paths))

/-- In the order of the list, up to the first file that is not as expected. -/
def compareAll (tree : FileTree) (current : Location) (place : Path) :
    List (String × Text) → Except Failure (List Path)
  | [] => .ok []
  | (name, text) :: rest =>
    match readLines tree current (place.child name) with
    | .error e => .error e
    | .ok found =>
      if found = Text.normalLines text then
        (compareAll tree current place rest).map (place.child name :: ·)
      else .error (.stale name)

/-- The paths of the written files. -/
def generate (current : Location) (root : Path) (settings : Settings) (tree : FileTree) :
    FileTree × Except Failure (List Path) :=
  match expected (root.resolve current) settings with
  | .error e => (tree, .error (.model e))
  | .ok files =>
    match tree.makeDirectories current (directory root) with
    | (tree, .error e) => (tree, .error (.system e))
    | (tree, .ok ()) => writeAll current (directory root) files tree

/-- The paths of the compared files. The directory of the files is made if it is missing, the
files are not. -/
def check (current : Location) (root : Path) (settings : Settings) (tree : FileTree) :
    FileTree × Except Failure (List Path) :=
  match expected (root.resolve current) settings with
  | .error e => (tree, .error (.model e))
  | .ok files =>
    match tree.makeDirectories current (directory root) with
    | (tree, .error e) => (tree, .error (.system e))
    | (tree, .ok ()) => (tree, compareAll tree current (directory root) files)

end WorkflowFiles
end CiPipeline
