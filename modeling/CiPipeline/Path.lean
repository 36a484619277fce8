import CiPipeline.Text

/-!
# CiPipeline.Path

Names of places in a file system, without looking at one.

* `Path`            — an anchor and the parts after it, as written: `..` is kept, `.` is not.
* `Path.parse`, `Path.toString` — from text and back.
* `Location`        — the parts of an absolute place, from the root down, without `..`.
* `Path.resolve`    — the location that a path names, `..` cancelling the part before it.
* `Path.relative`   — the way from one location to another.
* `WrittenPath`     — a path with the very text it was written in, and what the end of it asks for.
-/

namespace CiPipeline

inductive Path.Anchor where
  | relative
  | root
  /-- Exactly two slashes in front are kept apart from one, as the standard on paths allows. -/
  | doubleRoot
  deriving DecidableEq, Repr

structure Path where
  anchor : Path.Anchor
  parts : List String
  deriving DecidableEq, Repr

/-- A place, by the names on the way to it from the root. -/
abbrev Location := List String

namespace Path

def anchorOf : Text → Anchor
  | '/' :: '/' :: '/' :: _ => .root
  | '/' :: '/' :: _ => .doubleRoot
  | '/' :: _ => .root
  | _ => .relative

/-- Empty parts and `.` name no step of the way. -/
def parse (s : String) : Path where
  anchor := anchorOf s
  parts := ((Text.pieces '/' s).filter fun part => part != [] && part != ['.']).map String.ofList

def Anchor.text : Anchor → String
  | .relative => ""
  | .root => "/"
  | .doubleRoot => "//"

def toString (path : Path) : String :=
  match path.anchor, path.parts with
  | .relative, [] => "."
  | anchor, parts => anchor.text ++ "/".intercalate parts

def isAbsolute (path : Path) : Bool := path.anchor != .relative

def holdsNull (path : Path) : Bool := path.parts.any fun part => part.toList.contains '\x00'

/-- The path with further parts; an absolute path stands for itself. -/
def append (path more : Path) : Path :=
  if more.isAbsolute then more else { path with parts := path.parts ++ more.parts }

def child (path : Path) (name : String) : Path := { path with parts := path.parts ++ [name] }

/-- The last part, or nothing for an anchor alone. -/
def name (path : Path) : String := path.parts.getLastD ""

def ofLocation (location : Location) : Path := ⟨.root, location⟩

/-- Reads parts onto a way that is kept in reverse; above the root is the root. -/
def cancelOnto : List String → List String → Location
  | way, [] => way.reverse
  | way, part :: rest =>
    if part = ".." then cancelOnto way.tail rest else cancelOnto (part :: way) rest

/-- A part before `..` goes with it. -/
def cancel (parts : List String) : Location := cancelOnto [] parts

/-- A path that is not absolute starts from the current directory. -/
def resolve (current : Location) (path : Path) : Location :=
  cancel (if path.isAbsolute then path.parts else current ++ path.parts)

def sharedLength : List String → List String → Nat
  | a :: as, b :: bs => if a = b then sharedLength as bs + 1 else 0
  | _, _ => 0

/-- Up to the last place that both are under, and down from there. -/
def relative (start goal : Location) : Path :=
  let shared := sharedLength start goal
  ⟨.relative, List.replicate (start.length - shared) ".." ++ goal.drop shared⟩

/-- The end of a name from its last dot on; a dot at either end of the name starts no suffix. -/
def suffixOf (name : Text) : Text :=
  match (Text.pieces '.' name).reverse with
  | last :: before :: rest =>
    if last.isEmpty || (rest.isEmpty && before.isEmpty) then [] else '.' :: last
  | _ => []

end Path

/-- How the text of a path ends. -/
inductive WrittenPath.Ending where
  /-- In a name, which may be that of anything. -/
  | name
  /-- In a slash after a name: only a directory is meant. -/
  | slash
  /-- In a part `.`: what is before it has to be a directory. -/
  | dot
  deriving DecidableEq, Repr

/-- Messages show the text, not the path read from it. -/
structure WrittenPath where
  text : String
  path : Path
  ending : WrittenPath.Ending
  deriving DecidableEq, Repr

namespace WrittenPath

def endingOf (t : Text) : Ending :=
  let pieces := (Text.pieces '/' t).reverse
  match pieces, pieces.dropWhile List.isEmpty with
  | _, ['.'] :: _ => .dot
  | [] :: _, _ => .slash
  | _, _ => .name

def parse (s : String) : WrittenPath := ⟨s, Path.parse s, endingOf s⟩

/-- A path in its usual text ends in the name of its last part. -/
def ofPath (path : Path) : WrittenPath := ⟨path.toString, path, .name⟩

instance : Coe Path WrittenPath := ⟨ofPath⟩

end WrittenPath

namespace Location

def toString (location : Location) : String := (Path.ofLocation location).toString

end Location

end CiPipeline
