import CiPipeline.Proofs.EnvironmentBlock
import CiPipeline.Proofs.SettingsKept

/-!
# CiPipeline.Proofs.MissingConfig

When a command says that there is no config file.

* `Report.Titled`          — a report that opens with an error of a title; it has no other one.
* `isConfig_of_effect`     — writing and comparing files does not fail over config files.
* `reports_missingConfig_iff` — so the report hangs on how the settings failed to come out.
* `find_resolved`          — what a path leads to is found at the location it is resolved to.
* `Workspace.placeOf`      — the place that the path of a config file stands for.
* `Workspace.Absent`, `Workspace.Raises` — nothing is there; what is there raises an error itself.
* `Workspace.Homeward`     — the root starts with a tilde: the file is looked for as the path is
                             written, and loaded from a home directory.
* `Command.blames_iff`     — one of the three is the case.
* `Command.blames_present` — so the file that is missed may be there, and not have been asked for.
-/

namespace CiPipeline

/-! ## Titles -/

namespace Failure

theorem head?_append {s : String} {c : Char} (h : s.toList.head? = some c) (t : String) :
    (s ++ t).toList.head? = some c := by
  rw [String.toList_append, List.head?_append, h]
  rfl

theorem head?_earlier (line connection : String) :
    (earlier line connection).toList.head? = some 'T' := by
  rw [earlier, String.append_assoc, String.append_assoc, String.append_assoc]
  exact head?_append (by decide) _

theorem background_cases (f : Failure) :
    f.background = "" ∨ f.background.toList.head? = some 'T' := by
  cases f with
  | system e =>
    rw [background]
    cases e.making with
    | nil => exact .inl rfl
    | cons path paths =>
      right
      rw [List.map_cons, String.join_cons]
      exact head?_append (head?_earlier _ _) _
  | config e =>
    cases hcause : (config e).cause? with
    | none =>
      left
      simp only [background, hcause]
    | some cause =>
      right
      simp only [background, hcause]
      exact head?_earlier _ _
  | _ => exact .inl rfl

/-- A trace starts with its header, or with the one of an earlier failure. -/
theorem head?_trace (f : Failure) : f.trace.toList.head? = some 'T' := by
  rw [trace]
  rcases f.background_cases with hempty | hhead
  · rw [hempty, String.empty_append, String.append_assoc]
    exact head?_append (by decide) _
  · rw [String.append_assoc, String.append_assoc]
    exact head?_append hhead _

end Failure

namespace Report

variable {a b report : Report} {title other : String}

def Titled (title : String) (report : Report) : Prop :=
  ∃ more, report.err = "\nERROR: " ++ title ++ "\n" ++ more

theorem Titled.append (h : Titled title a) (b : Report) : Titled title (a ++ b) := by
  obtain ⟨more, hmore⟩ := h
  exact ⟨more ++ b.err, by rw [err_append, hmore, String.append_assoc]⟩

/-- The title ends with its line. -/
theorem Titled.unique (h : Titled title report) (h' : Titled other report)
    (hflat : '\n' ∉ title.toList) (hflat' : '\n' ∉ other.toList) : title = other := by
  obtain ⟨more, hmore⟩ := h
  obtain ⟨more', hmore'⟩ := h'
  have htext := congrArg String.toList (hmore.symm.trans hmore')
  simp only [String.toList_append, List.append_assoc, List.append_cancel_left_eq] at htext
  exact String.toList_inj.mp (Text.append_cons_inj hflat hflat' htext).1

theorem titled_problem (title message : String) (details : List String)
    (suggestion : Option String) : Titled title (problem title message details suggestion) := by
  unfold Titled problem
  simp only [String.append_assoc]
  exact ⟨_, rfl⟩

theorem titled_failedConfig (console : Console) (f : Failure) :
    Titled "Failed to load config" (failedConfig console f) :=
  (titled_problem ..).append _

theorem not_titled_of_head {c : Char} (hc : c ≠ '\n') (h : report.err.toList.head? = some c) :
    ¬ Titled title report := by
  rintro ⟨more, hmore⟩
  have hnewline : report.err.toList.head? = some '\n' := by
    rw [hmore]
    simp [String.toList_append]
  rw [h] at hnewline
  exact hc (Option.some.inj hnewline)

/-- A failure shown as it is has no title. -/
theorem not_titled_exception (console : Console) (f : Failure) :
    ¬ Titled title (exception console true f) := by
  obtain ⟨debug⟩ := console
  cases debug with
  | false =>
    have hhead : (exception {} true f).err.toList.head? = some 'E' := by
      simp [exception, String.toList_append]
    exact not_titled_of_head (by decide) hhead
  | true => exact not_titled_of_head (c := 'T') (by decide) f.head?_trace

theorem titled_missingConfig (f : Failure) : Titled "Config file not found" (missingConfig f) :=
  titled_problem ..

/-- Only one class of failures is told so. -/
theorem titled_unresolved_iff (console : Console) (f : Failure) :
    Titled "Config file not found" (unresolved console f) ↔ f.errorClass = .fileNotFound := by
  have hinvalid : ¬ Titled "Config file not found" (invalidConfig f) := fun h =>
    absurd (h.unique (titled_problem ..) (by decide) (by decide)) (by decide)
  have hfailed : ¬ Titled "Config file not found" (failedConfig console f) := fun h =>
    absurd (h.unique (titled_failedConfig ..) (by decide) (by decide)) (by decide)
  rw [unresolved]
  split
  · rename_i hclass
    exact iff_of_true (titled_missingConfig f) hclass
  · rename_i hclass
    exact iff_of_false hinvalid (by rw [hclass]; decide)
  · rename_i hclass
    exact iff_of_false hinvalid (by rw [hclass]; decide)
  · rename_i hclass
    exact iff_of_false hinvalid (by rw [hclass]; decide)
  · rename_i hclass _ _ _
    exact iff_of_false hfailed hclass

end Report

/-! ## Failures over files -/

def Failure.isConfig : Failure → Bool
  | config _ => true
  | _ => false

namespace WorkflowFiles

variable {tree : FileTree} {current : Location} {dir : Path} {f : Failure}

theorem isConfig_of_writeText {path : WrittenPath} {text : Text}
    (h : writeText tree current path text = .error f) : f.isConfig = false := by
  rw [writeText] at h
  cases hwrite : tree.write current path (Utf8.encode text) with
  | ok written =>
    rw [hwrite] at h
    cases h
  | error e =>
    rw [hwrite] at h
    cases h
    rfl

theorem isConfig_of_writeAll {files : List (String × Text)}
    (h : (writeAll current dir files tree).2 = .error f) : f.isConfig = false := by
  induction files generalizing tree with
  | nil => cases h
  | cons file files ih =>
    obtain ⟨name, text⟩ := file
    cases hwrite : writeText tree current (dir.child name) text with
    | error e =>
      rw [writeAll, hwrite] at h
      cases h
      exact isConfig_of_writeText hwrite
    | ok written =>
      simp only [writeAll, hwrite] at h
      rcases hrest : writeAll current dir files written with ⟨after, e | paths⟩
      · rw [hrest] at h
        cases h
        exact ih (by rw [hrest])
      · rw [hrest] at h
        cases h

theorem isConfig_of_readLines {path : WrittenPath} (h : readLines tree current path = .error f) :
    f.isConfig = false := by
  rw [readLines] at h
  split at h
  · cases h
    rfl
  · split at h
    · cases h
      rfl
    · cases h

theorem isConfig_of_compareAll {files : List (String × Text)}
    (h : compareAll tree current dir files = .error f) : f.isConfig = false := by
  induction files with
  | nil => cases h
  | cons file files ih =>
    obtain ⟨name, text⟩ := file
    rw [compareAll] at h
    split at h
    · rename_i hread
      cases h
      exact isConfig_of_readLines hread
    · split at h
      · cases hrest : compareAll tree current dir files with
        | error e =>
          rw [hrest] at h
          cases h
          exact ih hrest
        | ok paths =>
          rw [hrest] at h
          cases h
      · cases h
        rfl

end WorkflowFiles

namespace Command

variable {space : Workspace} {options : Options} {root : Path} {f : Failure}

theorem isConfig_of_effect {command : Command} {current : Location} {settings : Settings}
    {tree : FileTree} (h : (command.effect current root settings tree).2 = .error f) :
    f.isConfig = false := by
  cases hexpected : WorkflowFiles.expected (root.resolve current) settings with
  | error e =>
    rw [effect_of_model_error hexpected] at h
    cases h
    rfl
  | ok files =>
    rcases hmake : tree.makeDirectories current (WorkflowFiles.directory root) with ⟨made, e | _⟩
    · cases command with
      | generate =>
        simp only [effect, WorkflowFiles.generate, hexpected, hmake] at h
        cases h
        rfl
      | check =>
        simp only [effect, WorkflowFiles.check, hexpected, hmake] at h
        cases h
        rfl
    · cases command with
      | generate =>
        simp only [effect, WorkflowFiles.generate, hexpected, hmake] at h
        exact WorkflowFiles.isConfig_of_writeAll h
      | check =>
        simp only [effect, WorkflowFiles.check, hexpected, hmake] at h
        exact WorkflowFiles.isConfig_of_compareAll h

/-! ## What a command reports -/

theorem kind_of_diagnostic? {d : Diagnostic} (hf : f.isConfig = false)
    (h : f.diagnostic? = some d) : d.kind = "invalid_model" ∨ d.kind = "stale_workflow" := by
  cases f with
  | model e =>
    cases e with
    | invalidKey key =>
      cases h
      exact .inl rfl
    | _ => cases h
  | stale file =>
    cases h
    exact .inr rfl
  | config e => cases hf
  | _ => cases h

/-- Over files there are other titles, or none. -/
theorem not_titled_complaint (hf : f.isConfig = false) (console : Console) (command : Command) :
    ¬ Report.Titled "Config file not found" (command.complaint console f) := by
  intro htitled
  rw [complaint] at htitled
  split at htitled
  · have hworkflow : Report.Titled "Workflow file missing" (.missingWorkflow f) :=
      Report.titled_problem ..
    exact absurd (htitled.unique hworkflow (by decide) (by decide)) (by decide)
  · rw [Report.failure] at htitled
    split at htitled
    · rename_i d hd
      have hdiagnostic : Report.Titled (Report.title d.kind)
          (Report.diagnostic d ++ Report.debug console d.literal) :=
        (Report.titled_problem ..).append _
      rcases kind_of_diagnostic? hf hd with hkind | hkind
      · rw [hkind] at hdiagnostic
        exact absurd (htitled.unique hdiagnostic (by decide) (by decide)) (by decide)
      · rw [hkind] at hdiagnostic
        exact absurd (htitled.unique hdiagnostic (by decide) (by decide)) (by decide)
    · exact Report.not_titled_exception console f htitled

/-- The command ends with a report, and what is told after the opening message is an error of that
title. -/
def Reports (space : Workspace) (options : Options) (command : Command) (title : String) : Prop :=
  ∃ root outcome report, rootOf space options = .ok root ∧
    (run space options command).2 = .ok outcome ∧
    outcome.report = opening options root ++ report ∧ report.Titled title

theorem reports_iff_of_run {command : Command} {outcome : Outcome} {report : Report}
    {title : String} (hroot : rootOf space options = .ok root)
    (hrun : (run space options command).2 = .ok outcome)
    (hreport : outcome.report = opening options root ++ report) :
    Reports space options command title ↔ report.Titled title := by
  constructor
  · rintro ⟨root', outcome', report', hroot', hrun', hreport', htitled⟩
    cases hroot.symm.trans hroot'
    cases hrun.symm.trans hrun'
    have herr : report'.err = report.err := by
      have hboth := congrArg Report.err (hreport'.symm.trans hreport)
      have htext := congrArg String.toList hboth
      rw [Report.err_append, Report.err_append, String.toList_append, String.toList_append,
        List.append_cancel_left_eq] at htext
      exact String.toList_inj.mp htext
    obtain ⟨more, hmore⟩ := htitled
    exact ⟨more, herr ▸ hmore⟩
  · intro htitled
    exact ⟨root, outcome, report, hroot, hrun, hreport, htitled⟩

/-- The report hangs on the class of the failure alone. -/
theorem reports_missingConfig_iff (command : Command) :
    Reports space options command "Config file not found" ↔
      ∃ root f, rootOf space options = .ok root ∧
        space.resolveSettings root options.config = .error f ∧ f.errorClass = .fileNotFound := by
  cases hroot : rootOf space options with
  | error f =>
    constructor
    · rintro ⟨root, -, -, hok, -⟩
      rw [hroot] at hok
      cases hok
    · rintro ⟨root, -, hok, -⟩
      cases hok
  | ok root =>
    cases hsettings : space.resolveSettings root options.config with
    | error f =>
      have hrun := run_of_unresolved hroot hsettings command
      rw [reports_iff_of_run hroot (congrArg Prod.snd hrun) rfl, Report.titled_unresolved_iff]
      constructor
      · intro hclass
        exact ⟨root, f, rfl, hsettings, hclass⟩
      · rintro ⟨root', f', hroot', hf', hclass⟩
        cases hroot'
        rw [hsettings] at hf'
        cases hf'
        exact hclass
    | ok settings =>
      have hrun := run_of_resolved hroot hsettings command
      rw [reports_iff_of_run hroot (congrArg Prod.snd hrun) rfl]
      refine iff_of_false ?_ ?_
      · cases heffect : (command.effect space.current root settings space.tree).2 with
        | ok paths =>
          rintro ⟨more, hmore⟩
          have htext := congrArg String.toList hmore
          simp [conclude] at htext
        | error f => exact not_titled_complaint (isConfig_of_effect heffect) options.console command
      · rintro ⟨root', f', hroot', hf', -⟩
        cases hroot'
        rw [hsettings] at hf'
        cases hf'

end Command

/-! ## Where a config file is looked for -/

namespace FileTree

variable {tree : FileTree} {current start goal : Location} {path : Path} {entry : Entry}

/-- One part on, and again a location that its own parts lead to. -/
theorem walk_next (hstart : tree.walk [] start = .ok start)
    (hdirectory : tree.get? start = some .directory) (part : String) :
    tree.walk [] (next start part) = .ok (next start part) := by
  rw [next]
  split
  · rcases List.eq_nil_or_concat start with rfl | ⟨above, last, rfl⟩
    · rfl
    · have hdown : ".." ∉ above := by
        intro hmem
        have hself := walk_eq_cancelOnto hstart
        have hnone : ".." ∉ Path.cancelOnto [] (above ++ [last]) :=
          Path.down_cancelOnto List.not_mem_nil
        rw [List.concat_eq_append, List.reverse_nil] at hself
        rw [← hself] at hnone
        exact hnone (List.mem_append_left _ hmem)
      rw [List.concat_eq_append] at hstart
      obtain ⟨middle, hmiddle, -⟩ := exists_walk_of_append hstart
      have hsame := walk_eq_cancelOnto hmiddle
      rw [List.reverse_nil, Path.cancelOnto_of_down hdown, List.reverse_nil, List.nil_append]
        at hsame
      rw [List.concat_eq_append, List.dropLast_concat, hmiddle, hsame]
  · rename_i hpart
    rw [walk_append_of_ok hstart, walk_cons_of_directory hdirectory, next, if_neg hpart, walk]

theorem walk_self {way : List String} (hstart : tree.walk [] start = .ok start)
    (h : tree.walk start way = .ok goal) : tree.walk [] goal = .ok goal :=
  walk_keeps (P := fun place => tree.walk [] place = .ok place)
    (fun _ part hdirectory hplace => walk_next hplace hdirectory part) hstart h

theorem holds_iff :
    tree.holds current path = true ↔ ∃ entry, tree.find current path = .ok entry := by
  rw [holds]
  cases tree.find current path <;> simp [Except.isOk, Except.toBool]

theorem holds_eq_false_iff :
    tree.holds current path = false ↔ ∃ cause, tree.find current path = .error cause := by
  rw [holds]
  cases tree.find current path <;> simp [Except.isOk, Except.toBool]

/-- Detours make no difference to what is found. -/
theorem find_resolved (hnull : (Path.ofLocation (path.resolve current)).holdsNull = false)
    (h : tree.find current path = .ok entry) :
    tree.find current (Path.ofLocation (path.resolve current)) = .ok entry := by
  obtain ⟨place, hlocate, hentry⟩ := find_eq_ok_iff.mp h
  have hself := walk_self rfl (walk_of_locate hlocate).2
  obtain rfl := resolve_of_locate hlocate
  refine find_eq_ok_iff.mpr ⟨path.resolve current, ?_, hentry⟩
  rw [locate_eq, hnull]
  exact hself

end FileTree

namespace Path

variable {path : Path} {current : Location}

/-- The path starts with a tilde, which stands for a home directory. -/
def FromHome (path : Path) : Prop :=
  ∃ part rest user, path = ⟨.relative, part :: rest⟩ ∧ part.toList = '~' :: user

theorem fromHome_of_child {name : String} (h : (path.child name).FromHome)
    (hname : name.toList.head? ≠ some '~') : path.FromHome := by
  obtain ⟨part, rest, user, hpath, hpart⟩ := h
  obtain ⟨anchor, parts⟩ := path
  rw [child, Path.mk.injEq] at hpath
  obtain ⟨rfl, hparts⟩ := hpath
  cases parts with
  | nil =>
    obtain ⟨rfl, -⟩ := List.cons.inj hparts
    rw [hpart] at hname
    exact absurd rfl hname
  | cons first more =>
    obtain ⟨rfl, -⟩ := List.cons.inj hparts
    exact ⟨first, more, user, rfl, hpart⟩

theorem holdsNull_eq_false_iff :
    path.holdsNull = false ↔ ∀ part ∈ path.parts, '\x00' ∉ part.toList := by
  rw [holdsNull, List.any_eq_false]
  simp

/-- A resolved path has no other parts than the path and what it starts from. -/
theorem holdsNull_resolve (hpath : path.holdsNull = false)
    (hstart : path.isAbsolute = true ∨ (ofLocation (cancel current)).holdsNull = false) :
    (ofLocation (path.resolve current)).holdsNull = false := by
  rw [holdsNull_eq_false_iff] at hpath ⊢
  intro part hpart
  rw [ofLocation, resolve] at hpart
  split at hpart
  · rcases mem_of_mem_cancelOnto hpart with hnil | hmem
    · cases hnil
    · exact hpath part hmem
  · rename_i hrelative
    rw [cancel_append] at hpart
    rcases mem_of_mem_cancelOnto hpart with hbefore | hmem
    · exact holdsNull_eq_false_iff.mp (hstart.resolve_left hrelative) part
        (List.mem_reverse.mp hbefore)
    · exact hpath part hmem

end Path

namespace Workspace

variable {space : Workspace} {root path place expanded : Path} {entry : Entry} {f : Failure}

/-- The place that the path of a config file stands for: a tilde is read first. -/
def placeOf (space : Workspace) (path : Path) : Except Failure Path :=
  match space.expandHome path with
  | .error f => .error f
  | .ok expanded => space.absolute expanded

/-- There is no config file of that path: nothing is found at its place, or it has no place, since
it would start from a directory that was deleted. -/
inductive Absent (space : Workspace) (path : Path) : Prop where
  | missing (place : Path) (hplace : space.placeOf path = .ok place)
      (hholds : space.tree.holds space.current place = false)
  | adrift (hplace : space.placeOf path = .error .noCurrentDirectory)

/-- The config file is there, is run, and raises an error of that class itself. -/
def Raises (space : Workspace) (path : Path) (errorClass : ErrorClass) : Prop :=
  ∃ place entry raised, space.configAt path = .ok (place, entry) ∧
    space.runConfig place entry = .error (.config (.raised raised)) ∧
    raised.errorClass = errorClass

/-- The config file of the project is found by the path as it is written. That path starts with a
tilde, so another one is loaded, and nothing is there. -/
structure Homeward (space : Workspace) (root : Path) : Prop where
  tilde : root.FromHome
  written : space.tree.holds space.current (root.child defaultConfig) = true
  absent : space.Absent (root.child defaultConfig)

theorem expandHome_eq_self (h : ¬ path.FromHome) : space.expandHome path = .ok path := by
  unfold expandHome
  split
  · rename_i part rest
    split
    · rename_i user hpart
      exact absurd ⟨part, rest, user, rfl, hpart⟩ h
    · rfl
  · rfl

theorem errorClass_of_expandHome (h : space.expandHome path = .error f) :
    f.errorClass ≠ .fileNotFound := by
  unfold expandHome at h
  split at h
  · split at h
    · split at h
      · cases h
        exact nofun
      · split at h
        · cases h
          exact nofun
        · cases h
    · cases h
  · cases h

theorem errorClass_of_absolute (h : space.absolute path = .error f) :
    f.errorClass = .fileNotFound ↔ f = .noCurrentDirectory := by
  rw [absolute] at h
  split at h
  · cases h
    simp [Failure.errorClass, SystemError.Cause.errorClass]
  · split at h
    · cases h
    · cases h
      exact iff_of_true rfl rfl

theorem errorClass_of_placeOf (h : space.placeOf path = .error f) :
    f.errorClass = .fileNotFound ↔ f = .noCurrentDirectory := by
  rw [placeOf] at h
  split at h
  · rename_i hexpand
    cases h
    have hclass := errorClass_of_expandHome hexpand
    refine iff_of_false hclass ?_
    rintro rfl
    exact hclass rfl
  · exact errorClass_of_absolute h

theorem configAt_eq (space : Workspace) (path : Path) : space.configAt path =
    match space.placeOf path with
    | .error f => .error f
    | .ok place =>
      match space.tree.find space.current place with
      | .error _ => .error (.config (.missing place))
      | .ok entry =>
        if Path.suffixOf place.name = ".py" then .ok (place, entry)
        else .error (.config (.suffix place.name)) := by
  rw [configAt, placeOf]
  cases space.expandHome path <;> rfl

/-- Before anything is run, the class tells that the file is missing. -/
theorem configAt_notFound_iff :
    (∃ f, space.configAt path = .error f ∧ f.errorClass = .fileNotFound) ↔ space.Absent path := by
  rw [configAt_eq]
  constructor
  · rintro ⟨f, h, hclass⟩
    split at h
    · rename_i hplace
      cases h
      rw [errorClass_of_placeOf hplace] at hclass
      rw [hclass] at hplace
      exact .adrift hplace
    · rename_i place hplace
      split at h
      · rename_i hfind
        exact .missing place hplace (FileTree.holds_eq_false_iff.mpr ⟨_, hfind⟩)
      · split at h
        · cases h
        · cases h
          cases hclass
  · rintro (⟨place, hplace, hholds⟩ | hplace)
    · obtain ⟨cause, hfind⟩ := FileTree.holds_eq_false_iff.mp hholds
      exact ⟨.config (.missing place), by simp only [hplace, hfind], rfl⟩
    · rw [hplace]
      exact ⟨_, rfl, rfl⟩

theorem raised_of_runFile (h : runFile entry = .error f) (hclass : f.errorClass = .fileNotFound) :
    ∃ raised, f = .config (.raised raised) := by
  unfold runFile at h
  split at h
  · split at h
    · cases h
    · cases h
      cases hclass
    · rename_i raised _
      cases h
      exact ⟨raised, rfl⟩
  · cases h
    cases hclass

/-- Of what goes wrong when a config file is run, only its own errors can be of that class. -/
theorem raised_of_runConfig (h : space.runConfig place entry = .error f)
    (hclass : f.errorClass = .fileNotFound) : ∃ raised, f = .config (.raised raised) := by
  rw [runConfig] at h
  split at h
  · split at h
    · cases h
      cases hclass
    · exact raised_of_runFile h hclass
  · exact raised_of_runFile h hclass

/-- The loader tells a missing file and a file that raises an error of that class alike. -/
theorem loadSettings_notFound_iff :
    (∃ f, space.loadSettings path = .error f ∧ f.errorClass = .fileNotFound) ↔
      space.Absent path ∨ space.Raises path .fileNotFound := by
  rw [← configAt_notFound_iff, Raises, loadSettings]
  cases hconfig : space.configAt path with
  | error f => simp
  | ok found =>
    obtain ⟨place, entry⟩ := found
    constructor
    · rintro ⟨f, hrun, hclass⟩
      obtain ⟨raised, rfl⟩ := raised_of_runConfig hrun hclass
      exact .inr ⟨place, entry, raised, rfl, hrun, hclass⟩
    · rintro (⟨f, hnone, -⟩ | ⟨place', entry', raised, hsame, hrun, hclass⟩)
      · cases hnone
      · cases hsame
        exact ⟨_, hrun, hclass⟩

theorem placeOf_of_not_fromHome (hhome : ¬ path.FromHome) (hnull : path.holdsNull = false)
    (hstart : path.isAbsolute = true ∨ space.stranded = false) :
    space.placeOf path = .ok (Path.ofLocation (path.resolve space.current)) := by
  simp only [placeOf, expandHome_eq_self hhome]
  rcases hstart with habsolute | hinUse
  · rw [absolute, hnull, habsolute, Bool.true_or]
    rfl
  · exact absolute_of_inUse hinUse hnull

/-- What is found by a path without a tilde is not missing. -/
theorem not_absent_of_holds (hhome : ¬ path.FromHome)
    (hstart : path.isAbsolute = true ∨ space.stranded = false ∧
      (Path.ofLocation (Path.cancel space.current)).holdsNull = false)
    (hholds : space.tree.holds space.current path = true) : ¬ space.Absent path := by
  obtain ⟨entry, hfind⟩ := FileTree.holds_iff.mp hholds
  obtain ⟨location, hlocate, -⟩ := FileTree.find_eq_ok_iff.mp hfind
  have hnull := (FileTree.walk_of_locate hlocate).1
  have hplace := placeOf_of_not_fromHome hhome hnull (hstart.imp_right And.left)
  have hresolved := FileTree.find_resolved
    (Path.holdsNull_resolve hnull (hstart.imp_right And.right)) hfind
  rintro (⟨place, hplace', hmissing⟩ | hadrift)
  · rw [hplace] at hplace'
    cases hplace'
    obtain ⟨cause, herror⟩ := FileTree.holds_eq_false_iff.mp hmissing
    rw [hresolved] at herror
    cases herror
  · rw [hplace] at hadrift
    cases hadrift

/-- Only from a directory that is found is a project root asked for. -/
theorem holdsNull_of_projectRoot (h : space.projectRoot "." = .ok root) :
    root.isAbsolute = true ∨ (Path.ofLocation (Path.cancel space.current)).holdsNull = false := by
  rw [projectRoot] at h
  split at h
  · cases h
  · rename_i base hbase
    obtain rfl := eq_of_absolute hbase
    have hcurrent : (Path.parse ".").resolve space.current = Path.cancel space.current :=
      congrArg Path.cancel (List.append_nil space.current)
    rw [hcurrent] at h
    split at h
    · cases h
      exact .inl rfl
    · rename_i hfind
      obtain ⟨location, hlocate, -⟩ := FileTree.find_eq_ok_iff.mp hfind
      exact .inr (FileTree.walk_of_locate hlocate).1
    · cases h

end Workspace

/-! ## Who is told that a config file is missing -/

namespace Command

variable {space : Workspace} {options : Options} {root : Path}

theorem start_of_rootOf (h : rootOf space options = .ok root) :
    root.isAbsolute = true ∨ space.stranded = false ∧
      (Path.ofLocation (Path.cancel space.current)).holdsNull = false := by
  rcases rootOf_cases h with ⟨-, habsolute⟩ | ⟨-, hproject⟩
  · rw [Workspace.eq_of_absolute habsolute]
    exact .inl rfl
  · exact (Workspace.holdsNull_of_projectRoot hproject).imp_right
      (⟨Workspace.inUse_of_projectRoot hproject, ·⟩)

/-- The config file of the project, once it is found, is missing only behind a tilde. -/
theorem absent_default_iff (hroot : rootOf space options = .ok root)
    (hholds : space.tree.holds space.current (root.child Workspace.defaultConfig) = true) :
    space.Absent (root.child Workspace.defaultConfig) ↔ space.Homeward root := by
  refine ⟨fun habsent => ⟨?_, hholds, habsent⟩, Workspace.Homeward.absent⟩
  by_contra hhome
  have hchild : ¬ (root.child Workspace.defaultConfig).FromHome :=
    fun h => hhome (Path.fromHome_of_child h (by decide))
  -- The name of the file makes no difference to where the path starts.
  have hstart := start_of_rootOf hroot
  exact Workspace.not_absent_of_holds hchild hstart hholds habsent

theorem resolveSettings_notFound_iff (hroot : rootOf space options = .ok root) :
    (∃ f, space.resolveSettings root options.config = .error f ∧ f.errorClass = .fileNotFound) ↔
      (∃ given, options.config = some given ∧ space.Absent (Path.parse given)) ∨
        (∃ path, space.configPath root options.config = some path ∧
          space.Raises path .fileNotFound) ∨
        (options.config = none ∧ space.Homeward root) := by
  cases hconfig : options.config with
  | some given =>
    have hpath : space.configPath root (some given) = some (Path.parse given) := rfl
    simp only [Workspace.resolveSettings, hpath, Workspace.loadSettings_notFound_iff]
    simp
  | none =>
    cases hholds : space.tree.holds space.current (root.child Workspace.defaultConfig) with
    | false =>
      have hpath : space.configPath root none = none := by
        simp [Workspace.configPath, hholds]
      have hwritten : ¬ space.Homeward root := fun h => by
        rw [h.written] at hholds
        cases hholds
      simp [Workspace.resolveSettings, hpath, hwritten]
    | true =>
      have hpath : space.configPath root none = some (root.child Workspace.defaultConfig) := by
        simp [Workspace.configPath, hholds]
      simp only [Workspace.resolveSettings, hpath, Workspace.loadSettings_notFound_iff,
        absent_default_iff hroot hholds]
      simp [or_comm]

/-- A command says that there is no config file just if the given one is missing, if the config
file that is run raises an error of that class, given or not, or if the one of the project is
found but a tilde leads away from it. -/
theorem blames_iff (space : Workspace) (options : Options) (command : Command) :
    Reports space options command "Config file not found" ↔
      ∃ root, rootOf space options = .ok root ∧
        ((∃ given, options.config = some given ∧ space.Absent (Path.parse given)) ∨
          (∃ path, space.configPath root options.config = some path ∧
            space.Raises path .fileNotFound) ∨
          (options.config = none ∧ space.Homeward root)) := by
  rw [reports_missingConfig_iff]
  refine exists_congr fun root => ?_
  constructor
  · rintro ⟨f, hroot, hfailed⟩
    exact ⟨hroot, (resolveSettings_notFound_iff hroot).mp ⟨f, hfailed⟩⟩
  · rintro ⟨hroot, hcases⟩
    obtain ⟨f, hfailed⟩ := (resolveSettings_notFound_iff hroot).mpr hcases
    exact ⟨f, hroot, hfailed⟩

/-- A project whose config file reads a file that is not there. -/
def unversioned : Workspace where
  tree := ⟨.ofList [(["project"], .directory), (["project", "actionsgen_config.py"],
    .config { raises := some (.plain .fileNotFound "versions.txt") })]⟩
  current := ["project"]
  home := fun _ => none
  versionControl := none

/-- The config file is there, and it is called missing, whether it was asked for or not. -/
theorem blames_present :
    ¬ unversioned.Absent (Path.parse "actionsgen_config.py") ∧
      Reports unversioned {} generate "Config file not found" ∧
      Reports unversioned { config := some "actionsgen_config.py" } check
        "Config file not found" := by
  refine ⟨?_, ?_, ?_⟩
  · rw [← Workspace.configAt_notFound_iff]
    rintro ⟨f, hmissing, -⟩
    have hconfig : ∃ found,
        unversioned.configAt (Path.parse "actionsgen_config.py") = .ok found := ⟨_, rfl⟩
    obtain ⟨found, hfound⟩ := hconfig
    rw [hfound] at hmissing
    cases hmissing
  · exact ⟨_, _, _, rfl, rfl, rfl, Report.titled_missingConfig _⟩
  · exact ⟨_, _, _, rfl, rfl, rfl, Report.titled_missingConfig _⟩

end Command

end CiPipeline
