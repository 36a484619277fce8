/-!
# CiPipeline.PullRequest

The activities of a pull request that can trigger a workflow.

* `PullRequest.Activity`          — the fourteen activities.
* `PullRequest.Activity.name`     — the name of an activity in a workflow document.
* `PullRequest.Activity.standard` — what triggers when a document names no activity.
* `PullRequest.Activity.isStandard` — whether activities are those, told by their sorted names.
-/

namespace CiPipeline
namespace PullRequest

inductive Activity where
  | assigned
  | unassigned
  | labeled
  | unlabeled
  | opened
  | edited
  | closed
  | reopened
  | synchronize
  | readyForReview
  | locked
  | unlocked
  | reviewRequested
  | reviewRequestRemoved
  deriving DecidableEq, Repr

namespace Activity

def name : Activity → String
  | assigned => "assigned"
  | unassigned => "unassigned"
  | labeled => "labeled"
  | unlabeled => "unlabeled"
  | opened => "opened"
  | edited => "edited"
  | closed => "closed"
  | reopened => "reopened"
  | synchronize => "synchronize"
  | readyForReview => "ready_for_review"
  | locked => "locked"
  | unlocked => "unlocked"
  | reviewRequested => "review_requested"
  | reviewRequestRemoved => "review_request_removed"

def all : List Activity :=
  [assigned, unassigned, labeled, unlabeled, opened, edited, closed, reopened, synchronize,
    readyForReview, locked, unlocked, reviewRequested, reviewRequestRemoved]

theorem mem_all (activity : Activity) : activity ∈ all := by
  cases activity <;> simp [all]

def standard : List Activity := [opened, reopened, synchronize]

/-- The name of an activity as a constant: that of the documents in upper case. -/
def constant (activity : Activity) : String :=
  String.ofList (activity.name.toList.map Char.toUpper)

/-- A name put in its place among sorted ones. -/
def insertName (name : String) : List String → List String
  | [] => [name]
  | other :: rest => if name ≤ other then name :: other :: rest else other :: insertName name rest

def sortedNames (activities : List Activity) : List String :=
  (activities.map constant).foldr insertName []

/-- Whether a document may leave the activities out: the standard ones, each once, in any order. -/
def isStandard (activities : List Activity) : Bool :=
  sortedNames activities = sortedNames standard

end Activity

end PullRequest
end CiPipeline
