import CiPipeline.Command

/-!
# CiPipeline.Main

The command line: `[--debug] generate|check [--root DIR] [--config FILE]`.

* `Main.parse`    — the command and its options.
* `Main.snapshot` — the part of the disk that a command looks at, as a file tree.
* `Main.store`    — what a command changed, put back on the disk.

The command itself runs on the file tree. A config file is not run here: it raises an error that
says so.
-/

namespace CiPipeline
namespace Main

def parseOptions (options : Command.Options) : List String → Option Command.Options
  | [] => some options
  | "--root" :: root :: rest => parseOptions { options with root := some root } rest
  | "--config" :: config :: rest => parseOptions { options with config := some config } rest
  | _ :: _ => none

def parseCommand (debug : Bool) : List String → Option (Command × Command.Options)
  | "generate" :: rest => (parseOptions { debug := debug } rest).map (.generate, ·)
  | "check" :: rest => (parseOptions { debug := debug } rest).map (.check, ·)
  | _ => none

def parse : List String → Option (Command × Command.Options)
  | "--debug" :: rest => parseCommand true rest
  | arguments => parseCommand false arguments

def usage : String := "Usage: actionsgen [--debug] generate|check [--root DIR] [--config FILE]"

def unread (content : ByteArray) : ConfigFile where
  raises := some (.plain .runtimeError "config files are not run by this executable")
  content := content.toList

/-- The code of the system for reading a directory as if it were a file. -/
def isDirectoryCode : UInt32 := 21

/-- What is at a location, if anything. -/
def entryAt (location : Location) : IO (Option Entry) := do
  match ← (IO.FS.readBinFile location.toString).toBaseIO with
  | .ok content =>
    if Path.suffixOf (Path.ofLocation location).name = ".py" then
      return some (.config (unread content))
    else return some (.file content.toList)
  | .error (.inappropriateType _ code _) =>
    return if code = isDirectoryCode then some .directory else none
  | .error _ => return none

/-- The tree with what is at a location and at all locations above it. -/
def look (tree : FileTree) (location : Location) : IO FileTree :=
  (List.range location.length).foldlM (fun tree n => do
    let above := location.take (n + 1)
    match ← entryAt above with
    | some entry => return tree.insert above entry
    | none => return tree) tree

/-- The closest directory, from a location upwards, with the mark of a work tree. -/
def workTree (location : Location) : IO (Option Location) :=
  ((List.range (location.length + 1)).reverse.map location.take).findM? fun top => do
    return (← entryAt (top ++ [".git"])).isSome

def surroundings : IO Workspace := do
  let current := (Path.parse (← IO.currentDir).toString).resolve []
  let home ← IO.getEnv "HOME"
  let tree ← look {} current
  let answer : VersionControl.Answer :=
    match ← workTree current with
    | some top => ⟨top.toString ++ "\n", 0⟩
    | none => ⟨"", 128⟩
  return {
    tree := tree
    current := current
    home := fun user => if user.isEmpty then home.map Path.parse else none
    versionControl := some answer }

/-- The locations that a command with these options may look at, apart from those above them. -/
def footprint (space : Workspace) (options : Command.Options) : List Location :=
  let ofRoot :=
    match Command.rootOf space options with
    | .error _ => []
    | .ok root =>
      let directory := WorkflowFiles.directory root
      let config := root.child Workspace.defaultConfig
      [directory.child WorkflowFiles.ciFile, directory.child WorkflowFiles.cleanFile, config,
        Workspace.programFile config, Workspace.initialFile config]
  let ofConfig :=
    match options.config.map fun config => space.expandHome (Path.parse config) with
    | some (.ok path) => [path, Workspace.programFile path, Workspace.initialFile path]
    | _ => []
  (ofRoot ++ ofConfig).map (Path.resolve space.current)

def snapshot (space : Workspace) (options : Command.Options) : IO Workspace := do
  let tree ← (footprint space options).foldlM look space.tree
  return { space with tree := tree }

/-- Writes the entries that are not in the tree from before. -/
def store (before after : FileTree) : IO Unit :=
  after.table.entries.forM fun (location, entry) => do
    if before.get? location ≠ some entry then
      match entry with
      | .directory => IO.FS.createDirAll location.toString
      | .file content => IO.FS.writeBinFile location.toString ⟨content.toArray⟩
      | .config _ => pure ()

def start (arguments : List String) : IO UInt32 := do
  match parse arguments with
  | none =>
    (← IO.getStderr).putStrLn usage
    return 2
  | some (command, options) =>
    let space ← snapshot (← surroundings) options
    let (after, outcome) := command.run space options
    store space.tree after.tree
    match outcome with
    | .error failure =>
      (← IO.getStderr).putStr failure.trace
      return 1
    | .ok outcome =>
      (← IO.getStdout).putStr outcome.report.out
      (← IO.getStderr).putStr outcome.report.err
      return UInt32.ofNat outcome.exit

end Main
end CiPipeline

def main (arguments : List String) : IO UInt32 := CiPipeline.Main.start arguments
