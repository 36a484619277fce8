import CiPipeline.Block

/-!
# CiPipeline.Step

The steps of a job.

* `Step.Action` — what a step does: shell commands, build tool commands, or a reusable action.
* `Step`        — an action with what every step may carry: name, id, condition, environment.
* `Step.write`  — a step as an item of a sequence.

The steps `checkout`, `setupScala` and `setupPython` are those the pipeline is assembled from.
-/

namespace CiPipeline

/-- The cell of the matrix that a job runs in, as documents refer to it. -/
def matrixOs : String := "$\x7b\x7b matrix.os \x7d\x7d"

def matrixScala : String := "$\x7b\x7b matrix.scala \x7d\x7d"

def matrixJava : String := "$\x7b\x7b matrix.java \x7d\x7d"

inductive Step.Action where
  | run (commands : List String)
  | sbt (commands : List String)
  | use (owner repo ref : String) (params : Fields String)
  /-- The step is none of the above, and is shown as given. -/
  | unrecognised (shown : String)
  deriving DecidableEq

structure Step where
  action : Step.Action
  name : Option String := none
  id : Option String := none
  cond : Option String := none
  env : Fields String := .empty
  deriving DecidableEq

namespace Step

def checkout : Step where
  action := .use "actions" "checkout" "v2" .empty
  name := some "Checkout current branch (fast)"

def setupScala : Step where
  action := .use "olafurpg" "setup-scala" "v5" (.ofList [("java-version", matrixJava)])
  name := some "Setup Java and Scala"

def setupPython : Step where
  action := .use "actions" "setup-python" "v2" (.ofList [("python-version", "3.x")])
  name := some "Setup Python"

/-- A line `key: value`, or nothing when there is no value. -/
def line (key : Text) : Option String → Text
  | none => []
  | some value => key ++ ": " ++ Scalar.write value ++ "\n"

/-- A build tool command is one word of the command line: it is quoted when it holds a space. -/
def commandWord (command : String) : Text :=
  if command.toList.contains ' ' then '\'' :: command ++ ['\''] else command

def commandLine (commands : List String) : Text :=
  Text.joined " " (commands.map commandWord)

namespace Action

/-- Steps that run a shell name it when asked to; a reusable action has no shell. -/
def shellLine (declareShell : Bool) : Text := if declareShell then "shell: bash\n" else []

def write (buildTool : String) (declareShell : Bool) : Action → Except ModelError Text
  | run commands =>
    .ok (shellLine declareShell ++ "run: "
      ++ Scalar.write (Text.joined "\n" (commands.map String.toList)))
  | sbt commands =>
    .ok (shellLine declareShell ++ "run: "
      ++ Scalar.write (buildTool ++ " ++" ++ matrixScala ++ " " ++ commandLine commands))
  | use owner repo ref params =>
    match Block.write "with" params with
    | .error e => .error e
    | .ok block =>
      .ok ("uses: " ++ owner ++ "/" ++ repo ++ "@" ++ ref ++ Text.ledBy "\n" block)
  | unrecognised shown => .error (.unknownStep shown)

end Action

/-- The keys of the environment are looked at before the action. -/
def body (buildTool : String) (declareShell : Bool) (step : Step) : Except ModelError Text :=
  match Block.write "env" step.env with
  | .error e => .error e
  | .ok env =>
    match step.action.write buildTool declareShell with
    | .error e => .error e
    | .ok action =>
      .ok (line "name" step.name ++ line "id" step.id ++ line "if" step.cond
        ++ Text.endedBy "\n" env ++ action)

/-- The body one level in, with the dash of the item in the first column. -/
def write (buildTool : String) (declareShell : Bool) (step : Step) : Except ModelError Text :=
  (step.body buildTool declareShell).map fun body => '-' :: (Text.indent 1 body).drop 1

end Step

end CiPipeline
