/-!
# CiPipeline.ModelError

Why a description of a workflow cannot be written as a document.

* `ModelError`         — the causes.
* `ModelError.message` — their wording.
-/

namespace CiPipeline

inductive ModelError where
  /-- A key of an environment or parameter block that cannot stand before a colon. -/
  | invalidKey (key : String)
  /-- A value that is none of those known, as it is shown. -/
  | unknownRef (shown : String)
  | unknownPredicate (shown : String)
  | unknownStep (shown : String)
  /-- The publish job needs one Scala version, and none is configured. -/
  | noScalaVersion
  deriving DecidableEq, Repr

namespace ModelError

def message : ModelError → String
  | invalidKey key => "'" ++ key ++ "' is not a valid environment variable name"
  | unknownRef shown => "Unknown ref: " ++ shown
  | unknownPredicate shown => "Unknown ref predicate: " ++ shown
  | unknownStep shown => "Unknown workflow step: " ++ shown
  | noScalaVersion => "list index out of range"

end ModelError

end CiPipeline
