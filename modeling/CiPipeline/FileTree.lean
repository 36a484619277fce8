import CiPipeline.ConfigFile
import CiPipeline.Path
import CiPipeline.Text.Utf8

/-!
# CiPipeline.FileTree

A file system as a table of what is at each location.

* `Entry`, `FileTree`        — directories, files, and config files.
* `SystemError`              — why the file system refuses, and at which path.
* `FileTree.locate`          — the location a path leads to, every part on the way looked up.
* `FileTree.find`            — the entry at a path.
* `FileTree.makeDirectories` — a directory with all that is missing above it.
* `FileTree.read`, `FileTree.write` — whole files.

Paths that are not absolute start from the current directory, which every operation is given.

There are no links, nothing is out of reach for want of permission, names may be of any length, and
there is always space left to write. A path is refused only for what stands on its way or at its
end, or for a null character in it.
-/

namespace CiPipeline

inductive Entry where
  | directory
  | file (content : Bytes)
  /-- Known by what running it does, besides its bytes. -/
  | config (config : ConfigFile)
  deriving DecidableEq

inductive SystemError.Cause where
  | missing
  | exists
  | notADirectory
  | isADirectory
  /-- A path with a null character names nothing. -/
  | nullCharacter
  deriving DecidableEq, Repr

structure SystemError where
  cause : SystemError.Cause
  /-- The path as it was written. -/
  path : String
  /-- The missing directories that were to be made when this happened, the first one first. -/
  making : List String := []
  deriving DecidableEq, Repr

namespace SystemError

def Cause.errorClass : Cause → ErrorClass
  | .missing => .fileNotFound
  | .exists => .fileExists
  | .notADirectory => .notADirectory
  | .isADirectory => .isADirectory
  | .nullCharacter => .valueError

def withPath (words path : String) : String := words ++ ": " ++ Literal.write path

def message (e : SystemError) : String :=
  match e.cause with
  | .missing => withPath "[Errno 2] No such file or directory" e.path
  | .exists => withPath "[Errno 17] File exists" e.path
  | .notADirectory => withPath "[Errno 20] Not a directory" e.path
  | .isADirectory => withPath "[Errno 21] Is a directory" e.path
  | .nullCharacter => "embedded null byte"

end SystemError

structure FileTree where
  table : Table Location Entry := .empty

namespace FileTree

/-- The root is a directory, whatever the table says. -/
def get? (tree : FileTree) : Location → Option Entry
  | [] => some .directory
  | location => tree.table.get? location

def insert (tree : FileTree) (location : Location) (entry : Entry) : FileTree :=
  ⟨tree.table.insert location entry⟩

/-- The tree without a location and all that is under it. -/
def erase (tree : FileTree) (location : Location) : FileTree :=
  ⟨tree.table.eraseWhere location.isPrefixOf⟩

/-- Each part but the last has to name a directory, and `..` leads to the one above it. -/
def walk (tree : FileTree) : Location → List String → Except SystemError.Cause Location
  | location, [] => .ok location
  | location, part :: rest =>
    match tree.get? location with
    | none => .error .missing
    | some .directory =>
      walk tree (if part = ".." then location.dropLast else location ++ [part]) rest
    | some _ => .error .notADirectory

def locate (tree : FileTree) (current : Location) (path : Path) :
    Except SystemError.Cause Location :=
  if path.holdsNull then .error .nullCharacter
  else tree.walk [] (if path.isAbsolute then path.parts else current ++ path.parts)

def find (tree : FileTree) (current : Location) (path : Path) : Except SystemError.Cause Entry :=
  match tree.locate current path with
  | .error cause => .error cause
  | .ok location =>
    match tree.get? location with
    | none => .error .missing
    | some entry => .ok entry

/-- Whether anything can be found at a path. -/
def holds (tree : FileTree) (current : Location) (path : Path) : Bool :=
  (tree.find current path).isOk

def holdsDirectory (tree : FileTree) (current : Location) (path : Path) : Bool :=
  match tree.find current path with
  | .ok entry => entry = .directory
  | .error _ => false

def holdsFile (tree : FileTree) (current : Location) (path : Path) : Bool :=
  tree.holds current path && !tree.holdsDirectory current path

/-- A directory that is there already is as good as a new one. -/
def makeDirectory (tree : FileTree) (current : Location) (path : Path) :
    Except SystemError FileTree :=
  match tree.locate current path with
  | .error cause => .error { cause := cause, path := path.toString }
  | .ok location =>
    match tree.get? location with
    | none => .ok (tree.insert location .directory)
    | some .directory => .ok tree
    | some _ => .error { cause := .exists, path := path.toString }

/-- The directory at the first `n` parts of a path: made at once if the one above it is there, and
after that one otherwise. -/
def makeDirectoriesTo (current : Location) (path : Path) :
    Nat → FileTree → FileTree × Except SystemError Unit
  | 0, tree =>
    match tree.makeDirectory current { path with parts := [] } with
    | .ok tree => (tree, .ok ())
    | .error e => (tree, .error e)
  | n + 1, tree =>
    let target : Path := { path with parts := path.parts.take (n + 1) }
    let onTheWay (e : SystemError) := { e with making := target.toString :: e.making }
    match tree.makeDirectory current target with
    | .ok tree => (tree, .ok ())
    | .error e =>
      if e.cause = .missing then
        match makeDirectoriesTo current path n tree with
        | (tree, .error e) => (tree, .error (onTheWay e))
        | (tree, .ok ()) =>
          match tree.makeDirectory current target with
          | .ok tree => (tree, .ok ())
          | .error e => (tree, .error (onTheWay e))
      else (tree, .error e)

/-- What was made before a failure stays. -/
def makeDirectories (tree : FileTree) (current : Location) (path : Path) :
    FileTree × Except SystemError Unit :=
  makeDirectoriesTo current path path.parts.length tree

/-- Only a directory is found at a path that does not end in a name. -/
def read (tree : FileTree) (current : Location) (written : WrittenPath) :
    Except SystemError Bytes :=
  let refused (cause : SystemError.Cause) := .error { cause := cause, path := written.text }
  match tree.find current written.path with
  | .error cause => refused cause
  | .ok .directory => refused .isADirectory
  | .ok (.file content) => if written.ending = .name then .ok content else refused .notADirectory
  | .ok (.config config) =>
    if written.ending = .name then .ok config.content else refused .notADirectory

/-- The file is made if it is missing, and loses what it held if not. A slash at the end of the
path is refused whatever is there, since no file can be meant. -/
def write (tree : FileTree) (current : Location) (written : WrittenPath) (content : Bytes) :
    Except SystemError FileTree :=
  let refused (cause : SystemError.Cause) := .error { cause := cause, path := written.text }
  match tree.locate current written.path with
  | .error cause => refused cause
  | .ok location =>
    match tree.get? location, written.ending with
    | some .directory, _ => refused .isADirectory
    | _, .name => .ok (tree.insert location (.file content))
    | _, .slash => refused .isADirectory
    | none, .dot => refused .missing
    | some _, .dot => refused .notADirectory

end FileTree

end CiPipeline
