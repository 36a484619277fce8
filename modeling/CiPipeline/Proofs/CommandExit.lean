import CiPipeline.Command
import CiPipeline.Proofs.Comparison
import CiPipeline.Proofs.PathText

/-!
# CiPipeline.Proofs.CommandExit

How a command ends: its exit code, what it prints, and what it leaves of the files.

* `Report.Complaint` — nothing on the standard output, and something on the error output.
* `Workspace.afterResolving_eq` — looking for settings changes the memory of the loader alone.
* `Command.effect`, `Command.conclude` — what a command does to the files, and its report on that.
* `execute_eq`       — the report goes through the console that was set.
* `run_of_unresolved`, `run_of_resolved` — a command that found its root, with settings or without.
* `Workspace.Standing` — the current directory is there, so that a root is found.
* `run_verdict`      — the exit code says which of the two it was, and the outputs agree with it.
-/

namespace CiPipeline

/-! ## Reports -/

namespace Report

structure Complaint (report : Report) : Prop where
  out : report.out = ""
  err : report.err ≠ ""

theorem out_append (a b : Report) : (a ++ b).out = a.out ++ b.out := rfl

theorem err_append (a b : Report) : (a ++ b).err = a.err ++ b.err := rfl

theorem Complaint.append {a b : Report} (ha : a.Complaint) (hb : b.out = "") :
    (a ++ b).Complaint where
  out := by rw [out_append, ha.out, hb, String.append_empty]
  err := by
    rw [err_append, Ne, String.append_eq_empty_iff]
    exact fun h => ha.err h.1

theorem Complaint.after {a b : Report} (ha : a.out = "") (hb : b.Complaint) :
    (a ++ b).Complaint where
  out := by rw [out_append, ha, hb.out, String.append_empty]
  err := by
    rw [err_append, Ne, String.append_eq_empty_iff]
    exact fun h => hb.err h.2

theorem complaint_problem (title message : String) (details : List String)
    (suggestion : Option String) : (problem title message details suggestion).Complaint where
  out := rfl
  err := by simp [problem]

theorem complaint_exception (console : Console) (f : Failure) :
    (exception console true f).Complaint where
  out := rfl
  err := by
    rw [exception]
    split <;> simp [Failure.trace]

theorem complaint_failure (console : Console) (f : Failure) :
    (failure console true f).Complaint := by
  rw [failure]
  split
  · exact (complaint_problem ..).append rfl
  · exact complaint_exception console f

theorem complaint_failedConfig (console : Console) (f : Failure) :
    (failedConfig console f).Complaint := by
  refine (complaint_problem ..).append ?_
  split <;> rfl

theorem complaint_unresolved (console : Console) (f : Failure) :
    (unresolved console f).Complaint := by
  rw [unresolved]
  split
  · exact complaint_problem ..
  · exact complaint_problem ..
  · exact complaint_problem ..
  · exact complaint_problem ..
  · exact complaint_failedConfig console f

end Report

/-! ## What a process remembers -/

namespace Workspace

def remembering (space : Workspace) (memory : List Path) : Workspace :=
  { space with loadedDirectories := memory }

/-- The directory that is loaded as a config file. -/
def loadedBy (space : Workspace) (root : Path) (config : Option String) : Option Path :=
  match (space.configPath root config).map space.configAt with
  | some (.ok (path, .directory)) => some path
  | _ => none

theorem afterResolving_eq (space : Workspace) (root : Path) (config : Option String) :
    space.afterResolving root config =
      space.remembering ((space.loadedBy root config).toList ++ space.loadedDirectories) := by
  rw [afterResolving, loadedBy]
  cases space.configPath root config with
  | none => rfl
  | some path =>
    simp only [afterLoading, Option.map_some]
    rcases space.configAt path with f | ⟨place, _ | content | file⟩ <;> rfl

theorem afterResolving_tree (space : Workspace) (root : Path) (config : Option String) :
    (space.afterResolving root config).tree = space.tree := by
  rw [afterResolving_eq]
  rfl

section Console

variable (space : Workspace) (console : Console) (root : Path) (config : Option String)

theorem setConsole_tree : (space.setConsole console).tree = space.tree := rfl

theorem askConsole_setConsole :
    (space.setConsole console).askConsole = (space.setConsole console, console) := rfl

/-- Nothing that is looked for hangs on the console. -/
theorem resolveSettings_setConsole :
    (space.setConsole console).resolveSettings root config = space.resolveSettings root config :=
  rfl

theorem afterResolving_setConsole :
    (space.setConsole console).afterResolving root config =
      (space.afterResolving root config).setConsole console := by
  rw [afterResolving_eq, afterResolving_eq]
  rfl

end Console
end Workspace

/-! ## The parts of a command -/

namespace Command

variable {space : Workspace} {options : Options} {root : Path}

/-- What a command does to the files, and the files it is about. -/
def effect : Command → Location → Path → Settings → FileTree →
    FileTree × Except Failure (List Path)
  | generate => WorkflowFiles.generate
  | check => WorkflowFiles.check

def label : Command → String
  | generate => "WROTE: "
  | check => "UP TO DATE: "

/-- Only a check has words of its own for a missing file. -/
def complaint (console : Console) (command : Command) (f : Failure) : Report :=
  if command = check ∧ f.errorClass = .fileNotFound then .missingWorkflow f
  else .failure console true f

def conclude (console : Console) (command : Command) : Except Failure (List Path) → Outcome
  | .ok paths => ⟨0, { out := Report.pathLines command.label paths }⟩
  | .error f => ⟨1, command.complaint console f⟩

/-- A console that was set is the one that is asked for after the effect, and it stays. -/
theorem execute_eq {console : Console} (h : space.console = some console) (root : Path)
    (settings : Settings) (command : Command) :
    execute space root settings command =
      ({ space with tree := (command.effect space.current root settings space.tree).1 },
        command.conclude console (command.effect space.current root settings space.tree).2) := by
  cases command with
  | generate =>
    simp only [execute, effect]
    rcases WorkflowFiles.generate space.current root settings space.tree with ⟨tree, f | paths⟩
    · simp [Workspace.askConsole, h, conclude, complaint]
    · simp [Workspace.askConsole, h, conclude, Report.written, label]
  | check =>
    simp only [execute, effect]
    rcases WorkflowFiles.check space.current root settings space.tree with ⟨tree, f | paths⟩
    · simp only [Workspace.askConsole, h, conclude, complaint, true_and]
      split <;> rfl
    · simp [Workspace.askConsole, h, conclude, Report.upToDate, label]

theorem rootOf_setConsole (space : Workspace) (console : Console) (options : Options) :
    rootOf (space.setConsole console) options = rootOf space options := rfl

/-- What is printed before anything is looked for. -/
def opening (options : Options) (root : Path) : Report :=
  Report.debug options.console ("Project root: " ++ root.toString)

theorem run_of_root_error {f : Failure} (h : rootOf space options = .error f) (command : Command) :
    run space options command = (space.setConsole options.console, .error f) := by
  simp only [run, Workspace.askConsole_setConsole, rootOf_setConsole, h]

theorem run_of_unresolved (hroot : rootOf space options = .ok root) {f : Failure}
    (h : space.resolveSettings root options.config = .error f) (command : Command) :
    run space options command =
      ((space.afterResolving root options.config).setConsole options.console,
        .ok ⟨1, opening options root ++ .unresolved options.console f⟩) := by
  simp only [run, Workspace.askConsole_setConsole, rootOf_setConsole, hroot,
    Workspace.resolveSettings_setConsole, h, Workspace.afterResolving_setConsole, opening]

/-- The report on the effect, with what was printed before it. -/
def concluded (options : Options) (root : Path) (command : Command)
    (result : Except Failure (List Path)) : Outcome :=
  { command.conclude options.console result with
    report := opening options root ++ (command.conclude options.console result).report }

theorem run_of_resolved (hroot : rootOf space options = .ok root) {settings : Settings}
    (h : space.resolveSettings root options.config = .ok settings) (command : Command) :
    run space options command =
      ({ (space.afterResolving root options.config).setConsole options.console with
          tree := (command.effect space.current root settings space.tree).1 },
        .ok (concluded options root command
          (command.effect space.current root settings space.tree).2)) := by
  have hconsole : ((space.afterResolving root options.config).setConsole options.console).console =
      some options.console := rfl
  simp only [run, Workspace.askConsole_setConsole, rootOf_setConsole, hroot,
    Workspace.resolveSettings_setConsole, h, Workspace.afterResolving_setConsole,
    execute_eq hconsole]
  rw [Workspace.afterResolving_eq]
  rfl

/-! ## What a command prints -/

theorem complaint_complaint (console : Console) (command : Command) (f : Failure) :
    (command.complaint console f).Complaint := by
  rw [complaint]
  split
  · exact Report.complaint_problem ..
  · exact Report.complaint_failure console f

theorem concluded_ok (options : Options) (root : Path) (command : Command) (paths : List Path) :
    (concluded options root command (.ok paths)).exit = 0 ∧
      (concluded options root command (.ok paths)).report.out =
        Report.pathLines command.label paths ∧
      (options.debug = false → (concluded options root command (.ok paths)).report.err = "") := by
  refine ⟨rfl, ?_, ?_⟩
  · exact String.empty_append
  · intro hdebug
    have hopening : (opening options root).err = "" := by
      rw [opening, Report.debug, Options.console, hdebug]
      rfl
    rw [concluded, Report.err_append, hopening]
    rfl

theorem concluded_error (options : Options) (root : Path) (command : Command) (f : Failure) :
    (concluded options root command (.error f)).exit = 1 ∧
      (concluded options root command (.error f)).report.Complaint :=
  ⟨rfl, (complaint_complaint options.console command f).after rfl⟩

/-! ## Effects -/

section

variable {current : Location} {settings : Settings} {tree : FileTree}

theorem effect_of_model_error {e : ModelError}
    (h : WorkflowFiles.expected (root.resolve current) settings = .error e) (command : Command) :
    command.effect current root settings tree = (tree, .error (.model e)) := by
  cases command with
  | generate => rw [effect, WorkflowFiles.generate, h]
  | check => rw [effect, WorkflowFiles.check, h]

/-- A command that does not fail is about the two files of its root. -/
theorem paths_of_effect {command : Command} {paths : List Path}
    (h : (command.effect current root settings tree).2 = .ok paths) :
    paths = WorkflowFiles.paths root := by
  cases hexpected : WorkflowFiles.expected (root.resolve current) settings with
  | error e =>
    rw [effect_of_model_error hexpected] at h
    cases h
  | ok files =>
    cases command with
    | generate =>
      have hwhole := @WorkflowFiles.whole_of_expected current tree root settings files hexpected
      rcases hwhole.2 with ⟨hok, -⟩ | ⟨e, he⟩
      · exact Except.ok.inj (h.symm.trans hok)
      · exact absurd (h.symm.trans he) (by simp)
    | check =>
      rw [effect] at h
      rcases hmake : tree.makeDirectories current (WorkflowFiles.directory root) with ⟨made, e | _⟩
      · rw [WorkflowFiles.check_of_refused hexpected hmake] at h
        cases h
      · rw [WorkflowFiles.check_of_made hexpected hmake] at h
        split at h
        · cases h
        · exact (Except.ok.inj h).symm

end

end Command

/-! ## Roots -/

namespace Workspace

/-- The current directory was not deleted, and is where its name says. -/
structure Standing (space : Workspace) : Prop where
  inUse : space.stranded = false
  down : ".." ∉ space.current
  found : space.tree.find space.current (Path.ofLocation space.current) = .ok .directory

variable {space : Workspace}

theorem absolute_of_inUse (h : space.stranded = false) {path : Path} (hnull : path.holdsNull = false) :
    space.absolute path = .ok (Path.ofLocation (path.resolve space.current)) := by
  rw [absolute, hnull, h, Bool.not_false, Bool.or_true]
  rfl

namespace Standing

theorem absolute_dot (h : space.Standing) :
    space.absolute (Path.parse ".") = .ok (Path.ofLocation space.current) := by
  have hresolve : (Path.parse ".").resolve space.current = space.current := by
    have hparts : (Path.parse ".").resolve space.current =
        Path.cancel ([] ++ space.current) := congrArg Path.cancel (List.append_nil space.current)
    rw [hparts, Path.cancel_append_of_down _ h.down]
    rfl
  rw [absolute_of_inUse h.inUse rfl, hresolve]

/-- Then only version control has a say. -/
theorem projectRoot (h : space.Standing) : space.projectRoot "." =
    match space.versionControl with
    | none => .ok (Path.ofLocation space.current)
    | some answer =>
      if answer.exit = 0 then .ok (printedPath answer.output)
      else .ok (Path.ofLocation space.current) := by
  rw [Workspace.projectRoot, h.absolute_dot]
  cases space.versionControl with
  | none => simp only [h.found]
  | some answer => simp only [h.found]

theorem exists_projectRoot (h : space.Standing) : ∃ root, space.projectRoot "." = .ok root := by
  rw [h.projectRoot]
  split
  · exact ⟨_, rfl⟩
  · split
    · exact ⟨_, rfl⟩
    · exact ⟨_, rfl⟩

theorem exists_rootOf (h : space.Standing) {options : Command.Options}
    (hnull : ∀ root, options.root = some root → '\x00' ∉ root.toList) :
    ∃ root, Command.rootOf space options = .ok root := by
  rw [Command.rootOf]
  split
  · exact h.exists_projectRoot
  · rename_i root hroot
    split
    · exact h.exists_projectRoot
    · exact ⟨_, absolute_of_inUse h.inUse (Path.holdsNull_parse (hnull root hroot))⟩

end Standing
end Workspace

/-! ## Verdicts -/

namespace Command

/-- What the end of a command says, and what it says nothing but. -/
structure Verdict (space : Workspace) (options : Options) (command : Command) (root : Path)
    (outcome : Outcome) (after : FileTree) : Prop where
  code : outcome.exit = 0 ∨ outcome.exit = 1
  /-- There were settings, and the files were written or compared. -/
  success_iff : outcome.exit = 0 ↔ ∃ settings paths,
    space.resolveSettings root options.config = .ok settings ∧
      (command.effect space.current root settings space.tree).2 = .ok paths
  /-- One line for each file, in order. -/
  lines : ∀ settings paths, space.resolveSettings root options.config = .ok settings →
    (command.effect space.current root settings space.tree).2 = .ok paths →
    paths.length = 2 ∧ outcome.report.out = Report.pathLines command.label paths
  quiet : outcome.exit = 0 → options.debug = false → outcome.report.err = ""
  complaint : outcome.exit = 1 → outcome.report.Complaint
  files : ∀ settings, space.resolveSettings root options.config = .ok settings →
    after = (command.effect space.current root settings space.tree).1
  unresolved : ∀ f, space.resolveSettings root options.config = .error f → after = space.tree
  unwritten : ∀ settings e, space.resolveSettings root options.config = .ok settings →
    WorkflowFiles.expected (root.resolve space.current) settings = .error e → after = space.tree

variable {space : Workspace} {options : Options} {root : Path}

theorem verdict_of_unresolved {f : Failure}
    (h : space.resolveSettings root options.config = .error f) (command : Command) :
    Verdict space options command root
      ⟨1, opening options root ++ .unresolved options.console f⟩ space.tree where
  code := .inr rfl
  success_iff := by simp [h]
  lines settings paths hsettings := by
    rw [h] at hsettings
    cases hsettings
  quiet := by simp
  complaint _ := (Report.complaint_unresolved options.console f).after rfl
  files settings hsettings := by
    rw [h] at hsettings
    cases hsettings
  unresolved _ _ := rfl
  unwritten _ _ _ _ := rfl

theorem verdict_of_resolved {settings : Settings}
    (h : space.resolveSettings root options.config = .ok settings) (command : Command) :
    Verdict space options command root
      (concluded options root command
        (command.effect space.current root settings space.tree).2)
      (command.effect space.current root settings space.tree).1 where
  code := by
    cases (command.effect space.current root settings space.tree).2 with
    | ok paths => exact .inl rfl
    | error f => exact .inr rfl
  success_iff := by
    rw [h]
    constructor
    · intro hexit
      cases heffect : (command.effect space.current root settings space.tree).2 with
      | ok paths => exact ⟨settings, paths, rfl, heffect⟩
      | error f =>
        rw [heffect] at hexit
        cases hexit
    · rintro ⟨settings, paths, hsettings, heffect⟩
      cases hsettings
      rw [heffect]
      rfl
  lines settings' paths hsettings heffect := by
    rw [h] at hsettings
    cases hsettings
    rw [heffect, paths_of_effect heffect]
    exact ⟨rfl, (concluded_ok ..).2.1⟩
  quiet := by
    cases (command.effect space.current root settings space.tree).2 with
    | ok paths => exact fun _ => (concluded_ok ..).2.2
    | error f =>
      intro hexit
      cases hexit
  complaint := by
    cases (command.effect space.current root settings space.tree).2 with
    | ok paths =>
      intro hexit
      cases hexit
    | error f => exact fun _ => (concluded_error ..).2
  files settings' hsettings := by
    rw [h] at hsettings
    cases hsettings
    rfl
  unresolved f hf := by
    rw [h] at hf
    cases hf
  unwritten settings' e hsettings he := by
    rw [h] at hsettings
    cases hsettings
    rw [effect_of_model_error he]

/-- A command that is run where the current directory is there, with a root without null characters,
ends with an exit code and nothing escapes it. The code is zero exactly if there were settings and
the files were written or compared: then there is one line for each file, and at most debug messages
besides. Otherwise it is one, and there is nothing but a complaint. Without settings or a document,
the files are as before. -/
theorem run_verdict (hstanding : space.Standing)
    (hnull : ∀ root, options.root = some root → '\x00' ∉ root.toList) (command : Command) :
    ∃ root outcome, rootOf space options = .ok root ∧
      (run space options command).2 = .ok outcome ∧
      Verdict space options command root outcome (run space options command).1.tree := by
  obtain ⟨root, hroot⟩ := hstanding.exists_rootOf hnull
  cases hsettings : space.resolveSettings root options.config with
  | error f =>
    have hverdict := verdict_of_unresolved hsettings command
    rw [run_of_unresolved hroot hsettings, Workspace.setConsole_tree, Workspace.afterResolving_tree]
    exact ⟨root, _, hroot, rfl, hverdict⟩
  | ok settings =>
    have hverdict := verdict_of_resolved hsettings command
    rw [run_of_resolved hroot hsettings]
    exact ⟨root, _, hroot, rfl, hverdict⟩

/-- A project with two config files: settings without jobs, and an error. -/
def site : Workspace where
  tree := ⟨.ofList [(["project"], .directory),
    (["project", "small.py"], .config { constant := some (.settings { jobs := some [] }) }),
    (["project", "broken.py"], .config { raises := some (.plain .keyError "k") })]⟩
  current := ["project"]
  home := fun _ => none
  versionControl := none

/-- The files are written; the error of the other config file is told, and changes nothing. -/
theorem site_verdicts : site.Standing ∧
    (∃ outcome, (run site { config := some "small.py" } generate).2 = .ok outcome ∧
      outcome.exit = 0 ∧ outcome.report.err = "" ∧ outcome.report.out =
        "WROTE: /project/.github/workflows/ci.yml\nWROTE: /project/.github/workflows/clean.yml\n") ∧
    ∃ outcome, (run site { debug := true, config := some "broken.py" } check).2 = .ok outcome ∧
      outcome.exit = 1 ∧ outcome.report.Complaint ∧
      (run site { debug := true, config := some "broken.py" } check).1.tree = site.tree := by
  have hstanding : site.Standing := ⟨rfl, by decide, rfl⟩
  refine ⟨hstanding, ?_, ?_⟩
  · obtain ⟨root, outcome, hroot, hrun, hverdict⟩ :=
      @run_verdict site { config := some "small.py" } hstanding (by simp) generate
    cases hroot
    have hsettings : site.resolveSettings (Path.ofLocation ["project"]) (some "small.py") =
        .ok { jobs := some [] } := rfl
    obtain ⟨paths, heffect⟩ := exists_ok_of_isOk (r := (effect generate ["project"]
      (Path.ofLocation ["project"]) { jobs := some [] } site.tree).2) (by decide +kernel)
    have hexit := hverdict.success_iff.mpr ⟨_, paths, hsettings, heffect⟩
    have hlines := (hverdict.lines _ paths hsettings heffect).2
    rw [paths_of_effect heffect] at hlines
    exact ⟨outcome, hrun, hexit, hverdict.quiet hexit rfl, hlines.trans (by decide +kernel)⟩
  · obtain ⟨root, outcome, hroot, hrun, hverdict⟩ :=
      @run_verdict site { debug := true, config := some "broken.py" } hstanding (by simp) check
    cases hroot
    have hsettings : site.resolveSettings (Path.ofLocation ["project"]) (some "broken.py") =
        .error (.config (.raised (.plain .keyError "k"))) := rfl
    have hexit : outcome.exit = 1 := by
      refine hverdict.code.resolve_left fun h => ?_
      obtain ⟨settings, paths, hok, -⟩ := hverdict.success_iff.mp h
      cases hsettings.symm.trans hok
    exact ⟨outcome, hrun, hexit, hverdict.complaint hexit, hverdict.unresolved _ hsettings⟩

end Command
end CiPipeline
