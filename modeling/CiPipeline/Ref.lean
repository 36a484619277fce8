import CiPipeline.ModelError

/-!
# CiPipeline.Ref

Branches and tags, and conditions on them in the workflow expression language.

* `Ref.qualified`            — the full name of a ref, `refs/heads/…` or `refs/tags/…`.
* `RefPredicate`             — what the name of a branch or tag may be asked.
* `RefPredicate.expression`  — the question as an expression over a target, mostly `github.ref`.
-/

namespace CiPipeline

inductive Ref where
  | branch (name : String)
  | tag (name : String)
  /-- A value of another kind, known by how it is shown. -/
  | unrecognised (shown : String)
  deriving DecidableEq, Repr

namespace Ref

/-- What every full name of this kind of ref starts with. -/
def root : Ref → Except ModelError String
  | branch _ => .ok "refs/heads/"
  | tag _ => .ok "refs/tags/"
  | unrecognised shown => .error (.unknownRef shown)

def name : Ref → String
  | branch name => name
  | tag name => name
  | unrecognised _ => ""

def qualified (ref : Ref) : Except ModelError String :=
  ref.root.map fun root => root ++ ref.name

end Ref

inductive RefPredicate where
  | equals (ref : Ref)
  | contains (ref : Ref)
  | startsWith (ref : Ref)
  | endsWith (ref : Ref)
  | unrecognised (shown : String)
  deriving DecidableEq, Repr

namespace RefPredicate

def call (function target literal : String) : String :=
  function ++ "(" ++ target ++ ", '" ++ literal ++ "')"

/-- The target is a full name, so a test of an inner or final part of the name comes with a test
of the kind: a tag must not satisfy a predicate on branches. -/
def expression (target : String) : RefPredicate → Except ModelError String
  | equals ref => ref.qualified.map fun full => target ++ " == '" ++ full ++ "'"
  | contains ref => ref.root.map fun root =>
      "(" ++ call "startsWith" target root ++ " && " ++ call "contains" target ref.name ++ ")"
  | startsWith ref => ref.qualified.map fun full => call "startsWith" target full
  | endsWith ref => ref.root.map fun root =>
      "(" ++ call "startsWith" target root ++ " && " ++ call "endsWith" target ref.name ++ ")"
  | unrecognised shown => .error (.unknownPredicate shown)

end RefPredicate

end CiPipeline
