import CiPipeline.Proofs.CommandChanges

/-!
# CiPipeline.Proofs.CommandHistory

What the answer of a command depends on when the tool is used again and again.

* `withoutConsole`, `surroundings` — a workspace without some or all of what the process remembers.
* `Agrees`         — memories of the loader that differ at most where a directory is found.
* `visible`        — how a command ended, without the error output.
* `run_debug`      — debug mode changes the console and the error output alone.
* `run_withoutConsole` — a command does not notice the console that it finds.
* `Event`, `after` — commands, and changes of anything but what the process remembers.
* `after_alike`    — the debug flags of commands are forgotten with their consoles.
* `loaded_after`   — what is remembered are directories that earlier commands loaded.
* `run_independent` — an answer hangs on the surroundings, the options of the command, and memories
                      of directories that are none any more.
-/

namespace CiPipeline

/-! ## Memories -/

namespace Workspace

variable {space : Workspace} {memory : List Path}

def withoutConsole (space : Workspace) : Workspace := { space with console := none }

/-- The workspace for a process that remembers nothing. -/
def surroundings (space : Workspace) : Workspace := (space.remembering []).withoutConsole

/-- How the place of a config file is found. -/
theorem configAt_cases {config path : Path} {entry : Entry}
    (h : space.configAt config = .ok (path, entry)) :
    ∃ expanded, space.expandHome config = .ok expanded ∧ space.absolute expanded = .ok path ∧
      space.tree.find space.current path = .ok entry ∧ Path.suffixOf path.name = ".py" := by
  rw [configAt] at h
  split at h
  · cases h
  · rename_i expanded hexpand
    split at h
    · cases h
    · rename_i habsolute
      split at h
      · cases h
      · rename_i hfind
        split at h
        · rename_i hsuffix
          cases h
          exact ⟨expanded, hexpand, habsolute, hfind, hsuffix⟩
        · cases h

theorem find_of_loadedBy {root path : Path} {config : Option String}
    (h : space.loadedBy root config = some path) :
    space.tree.find space.current path = .ok .directory := by
  rw [loadedBy] at h
  split at h
  · rename_i hconfig
    cases h
    obtain ⟨place, -, hat⟩ := Option.map_eq_some_iff.mp hconfig
    obtain ⟨-, -, -, hfind, -⟩ := configAt_cases hat
    exact hfind
  · cases h

/-- Another memory for the loader, the same but for paths at which a directory is found. -/
def Agrees (space : Workspace) (memory : List Path) : Prop :=
  ∀ path, space.tree.find space.current path ≠ .ok .directory →
    (path ∈ space.loadedDirectories ↔ path ∈ memory)

namespace Agrees

theorem runConfig (h : space.Agrees memory) {path : Path} {entry : Entry}
    (hfind : space.tree.find space.current path = .ok entry) :
    (space.remembering memory).runConfig path entry = space.runConfig path entry := by
  by_cases hentry : entry = .directory
  · rw [Workspace.runConfig, Workspace.runConfig, if_pos (.inl hentry), if_pos (.inl hentry)]
    rfl
  · have hmemory := h path (by simpa [hfind] using hentry)
    rw [Workspace.runConfig, Workspace.runConfig]
    simp only [hmemory]
    rfl

theorem resolveSettings (h : space.Agrees memory) (root : Path) (config : Option String) :
    (space.remembering memory).resolveSettings root config = space.resolveSettings root config := by
  have hpath : (space.remembering memory).configPath root config =
      space.configPath root config := rfl
  rw [Workspace.resolveSettings, Workspace.resolveSettings, hpath]
  cases space.configPath root config with
  | none => rfl
  | some path =>
    have hat : (space.remembering memory).configAt path = space.configAt path := rfl
    simp only [loadSettings, hat]
    cases hconfig : space.configAt path with
    | error f => rfl
    | ok found =>
      obtain ⟨-, -, -, hfind, -⟩ := configAt_cases hconfig
      exact h.runConfig hfind

/-- Loading a directory adds it to both memories, and a directory stays one. -/
theorem updated (h : space.Agrees memory) {new file : Location → Prop} {tree : FileTree}
    (htree : FileTree.Updated new file space.tree tree) (more : List Path) :
    Agrees { space.remembering (more ++ space.loadedDirectories) with tree := tree }
      (more ++ memory) := by
  intro path hfind
  have hbefore : space.tree.find space.current path ≠ .ok .directory :=
    fun hdirectory => hfind (htree.find_directory hdirectory)
  show path ∈ _ ++ _ ↔ _
  rw [List.mem_append, List.mem_append, h path hbefore]

end Agrees

/-- What loading adds to the memory is a directory. -/
theorem agrees_loadedBy (space : Workspace) (root : Path) (config : Option String) :
    space.Agrees ((space.loadedBy root config).toList ++ space.loadedDirectories) := by
  intro path hfind
  have hloaded : space.loadedBy root config ≠ some path :=
    fun hloaded => hfind (find_of_loadedBy hloaded)
  rw [List.mem_append, Option.mem_toList]
  exact (or_iff_right hloaded).symm

end Workspace

namespace Command

variable {space : Workspace} {memory : List Path}

/-! ## Debug mode -/

/-- The exit code and the standard output, unless no root was found. -/
def visible (answer : Except Failure Outcome) : Except Failure (Nat × String) :=
  answer.map fun outcome => (outcome.exit, outcome.report.out)

theorem exists_outcome_of_visible {answer : Except Failure Outcome} {exit : Nat} {out : String}
    (h : (visible answer).toOption = some (exit, out)) :
    ∃ outcome, answer = .ok outcome ∧ outcome.exit = exit ∧ outcome.report.out = out := by
  cases answer with
  | error f => cases h
  | ok outcome =>
    cases h
    exact ⟨outcome, rfl, rfl, rfl⟩

theorem visible_concluded (options : Options) (debug : Bool) (root : Path) (command : Command)
    (result : Except Failure (List Path)) :
    visible (.ok (concluded { options with debug := debug } root command result)) =
      visible (.ok (concluded options root command result)) := by
  cases result with
  | ok paths => rfl
  | error f =>
    have hdebug := (concluded_error { options with debug := debug } root command f).2.out
    have hplain := (concluded_error options root command f).2.out
    show Except.ok (1, _) = Except.ok (1, _)
    rw [hdebug, hplain]

theorem run_debug (space : Workspace) (options : Options) (command : Command) (debug : Bool) :
    (run space { options with debug := debug } command).1.withoutConsole =
        (run space options command).1.withoutConsole ∧
      visible (run space { options with debug := debug } command).2 =
        visible (run space options command).2 := by
  have hsame : rootOf space { options with debug := debug } = rootOf space options := rfl
  cases hroot : rootOf space options with
  | error f =>
    rw [run_of_root_error hroot, run_of_root_error (hsame.trans hroot)]
    exact ⟨rfl, rfl⟩
  | ok root =>
    cases hsettings : space.resolveSettings root options.config with
    | error f =>
      rw [run_of_unresolved hroot hsettings, run_of_unresolved (hsame.trans hroot) hsettings]
      refine ⟨rfl, ?_⟩
      show Except.ok (1, _) = Except.ok (1, _)
      rw [Report.out_append, Report.out_append, (Report.complaint_unresolved _ f).out,
        (Report.complaint_unresolved _ f).out]
      rfl
    | ok settings =>
      rw [run_of_resolved hroot hsettings, run_of_resolved (hsame.trans hroot) hsettings]
      exact ⟨rfl, visible_concluded options debug root command _⟩

/-- The console that a command finds is replaced before anything is reported. -/
theorem run_withoutConsole (space : Workspace) (options : Options) (command : Command) :
    run space.withoutConsole options command = run space options command := rfl

theorem run_of_withoutConsole {space' : Workspace}
    (h : space.withoutConsole = space'.withoutConsole) (options : Options) (command : Command) :
    run space options command = run space' options command := by
  rw [← run_withoutConsole, h, run_withoutConsole]

/-! ## Events -/

/-- What happens while the tool is in use. -/
inductive Event where
  | call (options : Options) (command : Command)
  /-- Anything else. The process goes on and remembers what it did. -/
  | change (next : Workspace)

namespace Event

def after (space : Workspace) : Event → Workspace
  | call options command => (run space options command).1
  | change next =>
    { next with loadedDirectories := space.loadedDirectories, console := space.console }

def silenced : Event → Event
  | call options command => call { options with debug := false } command
  | change next => change next

theorem after_silenced {space space' : Workspace}
    (h : space.withoutConsole = space'.withoutConsole) (event : Event) :
    (event.silenced.after space).withoutConsole = (event.after space').withoutConsole := by
  cases event with
  | call options command =>
    rw [silenced, after, run_of_withoutConsole h]
    exact (run_debug space' options command false).1
  | change next =>
    exact congrArg (fun before : Workspace =>
      { next with loadedDirectories := before.loadedDirectories, console := none }) h

end Event

def after (space : Workspace) (events : List Event) : Workspace := events.foldl Event.after space

theorem after_silenced {space space' : Workspace}
    (h : space.withoutConsole = space'.withoutConsole) (events : List Event) :
    (after space (events.map Event.silenced)).withoutConsole =
      (after space' events).withoutConsole := by
  induction events generalizing space space' with
  | nil => exact h
  | cons event rest ih => exact ih (event.after_silenced h)

/-- Events that are the same but for the debug flags of the commands. -/
theorem after_alike {events others : List Event}
    (h : events.map Event.silenced = others.map Event.silenced) (space : Workspace) :
    (after space events).withoutConsole = (after space others).withoutConsole := by
  rw [← after_silenced rfl events, h, after_silenced rfl others]

/-! ## The memory of the loader -/

/-- The directory that a command loads as its config file, whatever else comes of it. -/
def loads (space : Workspace) (options : Options) : Option Path :=
  (rootOf space options).toOption.bind fun root => space.loadedBy root options.config

/-- Apart from the tree, a command changes what the process remembers, and nothing else. -/
theorem run_surroundings (space : Workspace) (options : Options) (command : Command) :
    (run space options command).1 =
      { space with
        tree := (run space options command).1.tree
        loadedDirectories := (loads space options).toList ++ space.loadedDirectories
        console := some options.console } := by
  rw [loads]
  cases hroot : rootOf space options with
  | error f =>
    rw [run_of_root_error hroot]
    rfl
  | ok root =>
    cases hsettings : space.resolveSettings root options.config with
    | error f =>
      rw [run_of_unresolved hroot hsettings, Workspace.afterResolving_eq]
      rfl
    | ok settings =>
      rw [run_of_resolved hroot hsettings, Workspace.afterResolving_eq]
      rfl

theorem loaded_event (space : Workspace) (event : Event) (path : Path) :
    path ∈ (event.after space).loadedDirectories ↔
      path ∈ space.loadedDirectories ∨
        ∃ options command, event = .call options command ∧ loads space options = some path := by
  cases event with
  | call options command =>
    have hmemory : ((Event.call options command).after space).loadedDirectories =
        (loads space options).toList ++ space.loadedDirectories :=
      congrArg Workspace.loadedDirectories (run_surroundings space options command)
    rw [hmemory, List.mem_append, Option.mem_toList, or_comm]
    simp
  | change next => simp [Event.after]

/-- What is remembered was so from the start, or is a directory that some command loaded. -/
theorem loaded_after (space : Workspace) (events : List Event) (path : Path) :
    path ∈ (after space events).loadedDirectories ↔
      path ∈ space.loadedDirectories ∨ ∃ n options command,
        events[n]? = some (.call options command) ∧
          loads (after space (events.take n)) options = some path := by
  induction events generalizing space with
  | nil => simp [after]
  | cons event rest ih =>
    have hafter : after space (event :: rest) = after (event.after space) rest := rfl
    have htake (n : Nat) : after space ((event :: rest).take (n + 1)) =
        after (event.after space) (rest.take n) := rfl
    have hnone : after space ((event :: rest).take 0) = space := rfl
    rw [hafter, ih, loaded_event, or_assoc]
    refine or_congr_right (Iff.trans ?_ Nat.or_exists_add_one)
    simp only [htake, hnone, List.getElem?_cons_succ, List.getElem?_cons_zero, Option.some.injEq]

theorem run_remembering (h : space.Agrees memory) (options : Options) (command : Command) :
    ∃ memory', run (space.remembering memory) options command =
        ((run space options command).1.remembering memory', (run space options command).2) ∧
      (run space options command).1.Agrees memory' := by
  have hsame : rootOf (space.remembering memory) options = rootOf space options := rfl
  cases hroot : rootOf space options with
  | error f =>
    rw [run_of_root_error hroot, run_of_root_error (hsame.trans hroot)]
    exact ⟨memory, rfl, h⟩
  | ok root =>
    have hresolve := h.resolveSettings root options.config
    refine ⟨(space.loadedBy root options.config).toList ++ memory, ?_⟩
    cases hsettings : space.resolveSettings root options.config with
    | error f =>
      rw [run_of_unresolved hroot hsettings,
        run_of_unresolved (hsame.trans hroot) (hresolve.trans hsettings),
        Workspace.afterResolving_eq, Workspace.afterResolving_eq]
      exact ⟨rfl, h.updated (.refl (fun _ => True) WorkflowFiles.FileName _) _⟩
    | ok settings =>
      rw [run_of_resolved hroot hsettings,
        run_of_resolved (hsame.trans hroot) (hresolve.trans hsettings),
        Workspace.afterResolving_eq, Workspace.afterResolving_eq]
      exact ⟨rfl, h.updated (effect_updated command space.current root settings space.tree) _⟩

/-- The answers to commands that follow one another at once. -/
def answers : Workspace → List (Options × Command) → List (Except Failure Outcome)
  | _, [] => []
  | space, (options, command) :: rest =>
    (run space options command).2 :: answers (run space options command).1 rest

theorem answers_remembering (h : space.Agrees memory) (commands : List (Options × Command)) :
    answers (space.remembering memory) commands = answers space commands := by
  induction commands generalizing space memory with
  | nil => rfl
  | cons call rest ih =>
    obtain ⟨options, command⟩ := call
    obtain ⟨memory', hrun, hagrees⟩ := run_remembering h options command
    rw [answers, answers, hrun, ih hagrees]

theorem answers_withoutConsole (space : Workspace) (commands : List (Options × Command)) :
    answers space.withoutConsole commands = answers space commands := by
  cases commands with
  | nil => rfl
  | cons call rest => rw [answers, answers, run_withoutConsole]

/-- The same surroundings after other events, and memories that agree. -/
theorem answers_of_surroundings {space' : Workspace}
    (hsame : space.surroundings = space'.surroundings)
    (h : space.Agrees space'.loadedDirectories) (commands : List (Options × Command)) :
    answers space' commands = answers space commands := by
  have hspace : space'.withoutConsole =
      space.withoutConsole.remembering space'.loadedDirectories :=
    congrArg (·.remembering space'.loadedDirectories) hsame.symm
  have hagrees : space.withoutConsole.Agrees space'.loadedDirectories := h
  rw [← answers_withoutConsole space', hspace, answers_remembering hagrees,
    answers_withoutConsole]

/-! ## What answers depend on -/

/-- Debug mode changes nothing of the workspace but the console, and nothing that is visible apart
from the error output; and a command ends the same whatever the debug flags of the commands before
it were. Where two runs of events lead to the same surroundings, the same commands get the same
answers, if what the loader remembers is the same wherever no directory is found; and it only ever
remembers directories that were loaded. -/
theorem run_independent (space : Workspace) (earlier : List Event) :
    (∀ options command debug,
      (run (after space earlier) { options with debug := debug } command).1.withoutConsole =
          (run (after space earlier) options command).1.withoutConsole ∧
        visible (run (after space earlier) { options with debug := debug } command).2 =
          visible (run (after space earlier) options command).2) ∧
    (∀ earlier', earlier'.map Event.silenced = earlier.map Event.silenced → ∀ options command,
      run (after space earlier') options command = run (after space earlier) options command) ∧
    (∀ space' earlier',
      (after space earlier).surroundings = (after space' earlier').surroundings →
      (after space earlier).Agrees (after space' earlier').loadedDirectories →
      ∀ commands, answers (after space' earlier') commands =
        answers (after space earlier) commands) ∧
    ∀ path, path ∈ (after space earlier).loadedDirectories ↔
      path ∈ space.loadedDirectories ∨ ∃ n options command,
        earlier[n]? = some (.call options command) ∧
          loads (after space (earlier.take n)) options = some path := by
  refine ⟨run_debug _, fun earlier' halike => ?_, fun _ _ => answers_of_surroundings, ?_⟩
  · exact run_of_withoutConsole (after_alike halike space)
  · exact loaded_after space earlier

/-- A project with a directory for a config file, and a program in it. -/
def packaged : Workspace where
  tree := ⟨.ofList [(["project"], .directory), (["project", "d.py"], .directory),
    (["project", "d.py", "__main__.py"],
      .config { constant := some (.settings { jobs := some [] }) })]⟩
  current := ["project"]
  home := fun _ => none
  versionControl := none

/-- The program stands in place of the directory. -/
def unpacked : Workspace :=
  { packaged with tree := ⟨.ofList [(["project"], .directory),
    (["project", "d.py"], .config { constant := some (.settings { jobs := some [] }) })]⟩ }

def load (debug : Bool) : Event := .call { debug := debug, config := some "d.py" } generate

/-- The directory is loaded before, in debug mode or not at all: as long as it is there, that makes
no difference. -/
theorem run_independent_packaged :
    (after packaged [load true, .change packaged]).Agrees [] ∧
      (∀ command, run (after packaged [load true]) { config := some "d.py" } command =
        run (after packaged [load false]) { config := some "d.py" } command) ∧
      answers packaged [({ config := some "d.py" }, generate), ({ config := some "d.py" }, check)] =
        answers (after packaged [load true, .change packaged])
          [({ config := some "d.py" }, generate), ({ config := some "d.py" }, check)] := by
  have hmemory : (after packaged [load true, .change packaged]).loadedDirectories =
      [Path.ofLocation ["project", "d.py"]] := by decide +kernel
  have hagrees : (after packaged [load true, .change packaged]).Agrees [] := by
    intro path hfind
    have hpath : path ≠ Path.ofLocation ["project", "d.py"] := by
      rintro rfl
      exact hfind rfl
    simpa [hmemory] using hpath
  refine ⟨hagrees, fun command => ?_, ?_⟩
  · exact ((run_independent packaged [load true]).2.1 [load false] rfl _ command).symm
  · exact (run_independent packaged [load true, .change packaged]).2.2.1 packaged [] rfl hagrees _

/-- Once the directory is replaced by a file, the same command fails or not, by whether the
directory was loaded before. -/
theorem answer_after_replacement :
    (after packaged [load false, .change unpacked]).surroundings =
        (after packaged [.change unpacked]).surroundings ∧
      (visible (run (after packaged [load false, .change unpacked])
        { config := some "d.py" } generate).2).toOption = some (1, "") ∧
      (visible (run (after packaged [.change unpacked])
        { config := some "d.py" } generate).2).toOption = some (0,
          "WROTE: /project/.github/workflows/ci.yml\nWROTE: /project/.github/workflows/clean.yml\n") := by
  refine ⟨rfl, ?_, ?_⟩ <;> decide +kernel

end Command
end CiPipeline
