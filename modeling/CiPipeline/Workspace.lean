import CiPipeline.Report
import CiPipeline.Text.Blank
import CiPipeline.Text.LineEnd
import CiPipeline.WorkflowFiles

/-!
# CiPipeline.Workspace

The surroundings of a run of the tool, and what it finds out about them.

* `Workspace`                 — the file tree, the current directory, the home directories, what
                                version control answers, and what the process remembers: the
                                console, and what was loaded before.
* `Workspace.setConsole`, `Workspace.askConsole` — the console of the process.
* `Workspace.projectRoot`     — the directory that workflows are generated under.
* `Workspace.loadSettings`    — the settings of a given config file.
* `Workspace.resolveSettings` — the settings of a project.
* `Workspace.afterLoading`, `Workspace.afterResolving` — the workspace once settings were looked
                                for.
-/

namespace CiPipeline

/-- How the question for the top of the work tree ended, and what was printed. -/
structure VersionControl.Answer where
  output : String
  exit : Int
  deriving DecidableEq

structure Workspace where
  tree : FileTree
  current : Location
  /-- Whether the current directory was deleted. No path can start from there any more, even if a
  new directory takes its place. -/
  stranded : Bool := false
  /-- The home directory of a user; the name is empty for the user who runs the tool. -/
  home : String → Option Path
  /-- Nothing if version control is not installed. -/
  versionControl : Option VersionControl.Answer
  /-- Directories that were loaded as config files. The loader goes on taking what is there for a
  directory. -/
  loadedDirectories : List Path := []
  /-- The console of the process; none as long as it was neither set nor asked for. -/
  console : Option Console := none

namespace Workspace

def setConsole (space : Workspace) (console : Console) : Workspace :=
  { space with console := some console }

/-- Where no console was set, a plain one is from now on. -/
def askConsole (space : Workspace) : Workspace × Console :=
  match space.console with
  | some console => (space, console)
  | none => (space.setConsole {}, {})

def defaultConfig : String := "actionsgen_config.py"

/-- The location that a path names, as an absolute path; nothing has to be there. -/
def absolute (space : Workspace) (path : Path) : Except Failure Path :=
  if path.holdsNull then
    .error (.system { cause := .nullCharacter, path := path.toString })
  else if path.isAbsolute || !space.stranded then
    .ok (Path.ofLocation (path.resolve space.current))
  else .error .noCurrentDirectory

/-- The path that was printed, without the blanks around it. -/
def printedPath (output : String) : Path :=
  Path.parse (String.ofList (Blank.trim (Text.plainEnds output)))

/-- The top of the work tree around `start`, or `start` itself outside of one. Version control is
not asked from a directory that is missing, and what is no directory stops everything. -/
def projectRoot (space : Workspace) (start : String) : Except Failure Path :=
  match space.absolute (Path.parse start) with
  | .error e => .error e
  | .ok base =>
    match space.tree.find space.current base with
    | .error .missing => .ok base
    | .ok .directory =>
      match space.versionControl with
      | none => .ok base
      | some answer => if answer.exit = 0 then .ok (printedPath answer.output) else .ok base
    | _ => .error (.system { cause := .notADirectory, path := base.toString })

/-- A tilde at the very start of a path stands for a home directory. -/
def expandHome (space : Workspace) (path : Path) : Except Failure Path :=
  match path with
  | ⟨.relative, part :: rest⟩ =>
    match part.toList with
    | '~' :: user =>
      if user.contains '\x00' then
        .error (.system { cause := .nullCharacter, path := path.toString })
      else match space.home (String.ofList user) with
        | none => .error (.config .noHome)
        | some home => .ok { home with parts := home.parts ++ rest }
    | _ => .ok path
  | _ => .ok path

/-- The place of a config file, and what is there. That something is there is asked before the
name is looked at. -/
def configAt (space : Workspace) (path : Path) : Except Failure (Path × Entry) :=
  match space.expandHome path with
  | .error e => .error e
  | .ok path =>
    match space.absolute path with
    | .error e => .error e
    | .ok path =>
      match space.tree.find space.current path with
      | .error _ => .error (.config (.missing path))
      | .ok entry =>
        if Path.suffixOf path.name = ".py" then .ok (path, entry)
        else .error (.config (.suffix path.name))

def package (directory : Path) : Path := directory.child "__main__"

def initialFile (directory : Path) : Path := (package directory).child "__init__.py"

def programFile (directory : Path) : Path := directory.child "__main__.py"

/-- What is run for a directory: a file inside, unless a package has the same name. A directory
without an initial file counts as a package only where there is no such file. -/
def programIn (space : Workspace) (directory : Path) : Except ConfigError.Lack Entry :=
  if space.tree.holdsFile space.current (initialFile directory) then .error .package
  else match space.tree.find space.current (programFile directory) with
    | .ok (.file content) => .ok (.file content)
    | .ok (.config config) => .ok (.config config)
    | _ =>
      if space.tree.holdsDirectory space.current (package directory) then .error .package
      else .error .noProgram

/-- What running a file does is known of described config files only. Any other file is taken to
define nothing, whatever it holds. -/
def runFile : Entry → Except Failure Settings
  | .config config =>
    match config.load with
    | .ok settings => .ok settings
    | .error .noSettings => .error (.config .noSettings)
    | .error (.raised raised) => .error (.config (.raised raised))
  | _ => .error (.config .noSettings)

def runConfig (space : Workspace) (path : Path) (entry : Entry) : Except Failure Settings :=
  if entry = .directory ∨ path ∈ space.loadedDirectories then
    match space.programIn path with
    | .error lack => .error (.config (.directory path lack))
    | .ok program => runFile program
  else runFile entry

def loadSettings (space : Workspace) (path : Path) : Except Failure Settings :=
  match space.configAt path with
  | .error e => .error e
  | .ok (path, entry) => space.runConfig path entry

/-- Loading changes nothing but what the loader remembers, and it does so whether settings come
out or not. -/
def afterLoading (space : Workspace) (path : Path) : Workspace :=
  match space.configAt path with
  | .ok (path, .directory) =>
    { space with loadedDirectories := path :: space.loadedDirectories }
  | _ => space

/-- A config file that is asked for has to exist; the one of the project need not. -/
def configPath (space : Workspace) (root : Path) (config : Option String) : Option Path :=
  match config with
  | some config => some (Path.parse config)
  | none =>
    let path := root.child defaultConfig
    if space.tree.holds space.current path then some path else none

def resolveSettings (space : Workspace) (root : Path) (config : Option String) :
    Except Failure Settings :=
  match space.configPath root config with
  | some path => space.loadSettings path
  | none => .ok {}

def afterResolving (space : Workspace) (root : Path) (config : Option String) : Workspace :=
  match space.configPath root config with
  | some path => space.afterLoading path
  | none => space

end Workspace

end CiPipeline
