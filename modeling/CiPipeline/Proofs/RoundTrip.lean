import CiPipeline.Proofs.SettingsKept

/-!
# CiPipeline.Proofs.RoundTrip

What commands with the same options do after a successful `generate`.

* `kept_of_generate` — a success leaves the two files with the document of the settings.
* `effect_of_kept`   — written again or compared, such files stay as they are.
* `Settled`          — the root and the settings are found, and the files agree with them.
* `settled_run`, `settled_following` — it stays so through every further command.
* `generate_round_trip` — all of them succeed, tell the same paths and leave the tree as it is.
-/

namespace CiPipeline

/-! ## Written again -/

namespace Table

variable {κ α : Type} [DecidableEq κ]

theorem put_of_lookup {key : κ} {value : α} {entries : List (κ × α)}
    (h : entries.lookup key = some value) : put key value entries = entries := by
  induction entries with
  | nil => cases h
  | cons entry rest ih =>
    rw [put]
    split
    · rename_i hkey
      subst hkey
      rw [List.lookup_cons, beq_self_eq_true] at h
      cases h
      rfl
    · rename_i hkey
      have hne : (key == entry.1) = false := by simpa using Ne.symm hkey
      rw [List.lookup_cons, hne] at h
      rw [ih h]

theorem insert_of_get? {table : Table κ α} {key : κ} {value : α}
    (h : table.get? key = some value) : table.insert key value = table := by
  cases table
  simpa [insert] using put_of_lookup h

end Table

theorem FileTree.insert_of_get? {tree : FileTree} {location : Location} {entry : Entry}
    (hne : location ≠ []) (h : tree.get? location = some entry) :
    tree.insert location entry = tree := by
  cases location with
  | nil => exact absurd rfl hne
  | cons part rest => exact congrArg FileTree.mk (Table.insert_of_get? h)

namespace WorkflowFiles

variable {current place : Location} {tree after : FileTree} {root path : Path} {text : Text}
  {settings : Settings}

theorem writeText_of_same (hlocate : tree.locate current path = .ok place) (hne : place ≠ [])
    (hfile : tree.get? place = some (.file (Utf8.encode text))) :
    writeText tree current path text = .ok tree := by
  rw [writeText, FileTree.write_ofPath hlocate (by simp [hfile]),
    FileTree.insert_of_get? hne hfile]
  rfl

theorem Kept.noNull {document : Option Text} (h : Kept tree current root place document) :
    root.holdsNull = false := by
  have hdirectory := (FileTree.walk_of_locate h.located).1
  simp only [WorkflowFiles.directory, Path.holdsNull_child, Bool.or_eq_false_iff] at hdirectory
  exact hdirectory.1.1

theorem Kept.writeAll_same (h : Kept tree current root place (some text)) :
    WorkflowFiles.writeAll current (WorkflowFiles.directory root)
      [(ciFile, text), (cleanFile, CleanWorkflow.document)] tree = (tree, .ok (paths root)) := by
  have hci := writeText_of_same h.locate_ciFile (by simp) h.ci
  have hclean := writeText_of_same h.locate_cleanFile (by simp) h.clean
  rw [writeAll_of_written hci, writeAll_of_written hclean]
  rfl

theorem kept_of_generate {found : List Path}
    (h : generate current root settings tree = (after, .ok found)) :
    ∃ place text, Pipeline.document (root.resolve current) settings = .ok text ∧
      Kept after current root place (some text) := by
  cases hdocument : Pipeline.document (root.resolve current) settings with
  | error e =>
    rw [generate_of_error hdocument] at h
    cases h
  | ok text =>
    have hexpected := expected_of_ok hdocument
    have hnames := names_of_expected hexpected
    rcases hmake : tree.makeDirectories current (directory root) with ⟨made, e | _⟩
    · rw [generate, hexpected, hmake] at h
      cases h
    · have hwrite : writeAll current (directory root)
          [(ciFile, text), (cleanFile, CleanWorkflow.document)] made = (after, .ok found) := by
        rw [← h, generate, hexpected, hmake]
      have hleads := FileTree.makeDirectories_leads hmake
      have hupdated : FileTree.Updated (fun _ => False) FileName made after := by
        have hall : FileTree.Updated (fun _ => False) FileName made
            (writeAll current (directory root) _ made).1 :=
          writeAll_updated (fileName_of_names hnames) made
        rwa [hwrite] at hall
      have hdistinct : [ciFile, cleanFile].Nodup := by decide
      obtain ⟨written, rest, hfiles, hwritten, houtcome⟩ :=
        writeAll_written hleads (plain_of_names hnames) (hnames.symm ▸ hdistinct)
      rw [hwrite] at hwritten houtcome
      cases rest with
      | cons file more => cases houtcome
      | nil =>
        rw [List.append_nil] at hfiles
        subst hfiles
        obtain ⟨place, hlocate, hdirectory⟩ := hleads
        obtain rfl := FileTree.resolve_of_locate hlocate
        refine ⟨_, text, rfl, hupdated.keepsDirectories.locate hlocate,
          hupdated.directory hdirectory, ?_, ?_⟩
        · exact hwritten.holds _ List.mem_cons_self
        · exact hwritten.holds _ (List.mem_cons_of_mem _ List.mem_cons_self)

end WorkflowFiles

namespace Command

open WorkflowFiles (Kept)

variable {space after : Workspace} {options : Options} {root : Path} {settings : Settings}

theorem effect_of_kept {tree : FileTree} {current place : Location} {text : Text}
    (h : Kept tree current root place (some text))
    (hdocument : Pipeline.document (root.resolve current) settings = .ok text)
    (command : Command) :
    command.effect current root settings tree = (tree, .ok (WorkflowFiles.paths root)) := by
  cases command with
  | generate =>
    rw [effect, WorkflowFiles.generate, WorkflowFiles.expected_of_ok hdocument, h.makeDirectories]
    exact h.writeAll_same
  | check =>
    rw [effect, WorkflowFiles.check, WorkflowFiles.expected_of_ok hdocument, h.makeDirectories]
    exact congrArg (Prod.mk tree) ((h.compareAll_some text).trans (if_pos rfl))

/-! ## Settled workspaces -/

/-- The files are up to date, and a command with the options finds that out. -/
structure Settled (space : Workspace) (options : Options) (root : Path) (settings : Settings) :
    Prop where
  rooted : rootOf space options = .ok root
  resolved : space.resolveSettings root options.config = .ok settings
  upToDate : ∀ command : Command, command.effect space.current root settings space.tree =
    (space.tree, .ok (WorkflowFiles.paths root))

theorem Settled.remembering (h : Settled space options root settings) {memory : List Path}
    (hagrees : space.Agrees memory) (console : Console) :
    Settled ((space.remembering memory).setConsole console) options root settings :=
  ⟨h.rooted, (hagrees.resolveSettings root options.config).trans h.resolved, h.upToDate⟩

theorem run_of_settled (h : Settled space options root settings) (command : Command) :
    run space options command =
      ((space.afterResolving root options.config).setConsole options.console,
        .ok (concluded options root command (.ok (WorkflowFiles.paths root)))) := by
  rw [run_of_resolved h.rooted h.resolved, h.upToDate, Workspace.afterResolving_eq]
  rfl

theorem settled_run (h : Settled space options root settings) (command : Command) :
    Settled (run space options command).1 options root settings := by
  rw [run_of_settled h, Workspace.afterResolving_eq]
  exact h.remembering (space.agrees_loadedBy root options.config) options.console

def following (space : Workspace) (options : Options) (commands : List Command) : Workspace :=
  commands.foldl (fun space command => (run space options command).1) space

theorem settled_following (h : Settled space options root settings) (commands : List Command) :
    Settled (following space options commands) options root settings ∧
      (following space options commands).tree = space.tree := by
  induction commands generalizing space with
  | nil => exact ⟨h, rfl⟩
  | cons command rest ih =>
    obtain ⟨hsettled, htree⟩ := ih (settled_run h command)
    refine ⟨hsettled, htree.trans ?_⟩
    rw [run_of_settled h, Workspace.setConsole_tree, Workspace.afterResolving_tree]

/-- The first success: the files are new, and root and settings are found as before. -/
theorem settled_of_generate (hsound : space.Sound) {written : Outcome}
    (hrun : run space options generate = (after, .ok written)) (hexit : written.exit = 0)
    (hroot : options.config = none → options.root.getD "" = "" →
      ∀ root, rootOf space options = .ok root → ".." ∈ root.parts → ¬ space.Surfaces root) :
    ∃ root settings, Settled after options root settings ∧
      written = concluded options root generate (.ok (WorkflowFiles.paths root)) := by
  cases hrootOf : rootOf space options with
  | error f =>
    rw [run_of_root_error hrootOf] at hrun
    cases hrun
  | ok root =>
    cases hsettings : space.resolveSettings root options.config with
    | error f =>
      rw [run_of_unresolved hrootOf hsettings] at hrun
      cases hrun
      cases hexit
    | ok settings =>
      have hupdated := effect_updated generate space.current root settings space.tree
      rw [run_of_resolved hrootOf hsettings] at hrun
      rcases heffect : generate.effect space.current root settings space.tree with ⟨tree, f | paths⟩
      · rw [heffect] at hrun
        cases hrun
        cases hexit
      · rw [heffect] at hrun hupdated
        cases hrun
        obtain ⟨place, text, hdocument, hkept⟩ := WorkflowFiles.kept_of_generate heffect
        have hsurfaces : options.config = none → ¬ space.Surfaces root := fun hconfig =>
          Workspace.not_surfaces_of_rootOf hsound hrootOf hkept.noNull fun hgiven hup =>
            hroot hconfig hgiven root hrootOf hup
        have hsettled : Settled (space.replacing tree) options root settings :=
          ⟨rootOf_replacing hsound hupdated hrootOf,
            Workspace.resolveSettings_replacing hsound.connected hsurfaces hupdated
              ⟨place, hkept.located, hkept.directory⟩ hsettings,
            effect_of_kept hkept hdocument⟩
        have hagrees := (space.agrees_loadedBy root options.config).updated hupdated []
        refine ⟨root, settings, ?_, ?_⟩
        · rw [Workspace.afterResolving_eq]
          exact hsettled.remembering hagrees options.console
        · rw [paths_of_effect (congrArg Prod.snd heffect)]

/-- After a `generate` that succeeds, every further command with the same options succeeds as well,
tells the same paths in the same order, and leaves the tree as it is. One case is left out: version
control prints a root that goes back over something missing, and the config file of the project comes
in sight when this is made. -/
theorem generate_round_trip (hsound : space.Sound) {written : Outcome}
    (hrun : run space options generate = (after, .ok written)) (hexit : written.exit = 0)
    (hroot : options.config = none → options.root.getD "" = "" →
      ∀ root, rootOf space options = .ok root → ".." ∈ root.parts → ¬ space.Surfaces root) :
    ∃ paths, written.report.out = Report.pathLines generate.label paths ∧
      ∀ (between : List Command) (command : Command),
        ∃ outcome, (run (following after options between) options command).2 = .ok outcome ∧
          outcome.exit = 0 ∧ outcome.report.out = Report.pathLines command.label paths ∧
          (run (following after options between) options command).1.tree = after.tree := by
  obtain ⟨root, settings, hsettled, rfl⟩ := settled_of_generate hsound hrun hexit hroot
  refine ⟨WorkflowFiles.paths root, (concluded_ok ..).2.1, fun between command => ?_⟩
  obtain ⟨hbetween, htree⟩ := settled_following hsettled between
  rw [run_of_settled hbetween, Workspace.setConsole_tree, Workspace.afterResolving_tree]
  exact ⟨_, rfl, rfl, (concluded_ok ..).2.1, htree⟩

/-- The root as version control prints it, by way of a directory that may be missing. -/
def detour : Path := ⟨.root, ["project", "x", "..", "y"]⟩

def detoured (entries : List (Location × Entry)) : Workspace where
  tree := ⟨.ofList ((["project"], .directory) :: entries)⟩
  current := ["project"]
  home := fun _ => none
  versionControl := some ⟨"/project/x/../y\n", 0⟩

/-- No config file is there to come in sight: the check that follows agrees. -/
theorem detoured_round_trip : (detoured []).Sound ∧
    (∀ root, rootOf (detoured []) {} = .ok root → ".." ∈ root.parts ∧
      ¬ (detoured []).Surfaces root) ∧
    ∃ after written, run (detoured []) {} generate = (after, .ok written) ∧ written.exit = 0 ∧
      ∃ outcome, (run after {} check).2 = .ok outcome ∧ outcome.exit = 0 ∧
        ∃ paths, written.report.out = Report.pathLines "WROTE: " paths ∧
          outcome.report.out = Report.pathLines "UP TO DATE: " paths := by
  have hsound : (detoured []).Sound :=
    ⟨FileTree.connected_of_entries (by decide), fun _ => ⟨rfl, by decide, rfl⟩⟩
  have hroot : ∀ root, rootOf (detoured []) {} = .ok root → ".." ∈ root.parts ∧
      ¬ (detoured []).Surfaces root := by
    intro root hroot
    have hprinted : rootOf (detoured []) {} = .ok detour := by decide +kernel
    cases hroot.symm.trans hprinted
    exact ⟨by decide, by decide +kernel⟩
  have hvisible : (visible (run (detoured []) {} generate).2).toOption =
      some (0, Report.pathLines "WROTE: " (WorkflowFiles.paths detour)) := by decide +kernel
  obtain ⟨written, hwritten, hexit, -⟩ := exists_outcome_of_visible hvisible
  have hrun : run (detoured []) {} generate = ((run (detoured []) {} generate).1, .ok written) :=
    Prod.ext rfl hwritten
  obtain ⟨paths, hpaths, hfollowing⟩ := generate_round_trip hsound hrun hexit
    fun _ _ root hok _ => (hroot root hok).2
  obtain ⟨outcome, hcheck, hzero, hout, -⟩ := hfollowing [] check
  exact ⟨hsound, hroot, _, written, hrun, hexit, outcome, hcheck, hzero, paths, hpaths, hout⟩

def hidden : Workspace :=
  detoured [(["project", "y"], .directory), (["project", "y", "actionsgen_config.py"], .config {})]

/-- The first command makes the missing directory, and so the second one finds a config file. -/
theorem hidden_surfaces : hidden.Sound ∧
    (visible (run hidden {} generate).2).toOption =
      some (0, Report.pathLines "WROTE: " (WorkflowFiles.paths detour)) ∧
    (visible (run (run hidden {} generate).1 {} check).2).toOption = some (1, "") :=
  ⟨⟨FileTree.connected_of_entries (by decide), fun _ => ⟨rfl, by decide, rfl⟩⟩,
    by decide +kernel, by decide +kernel⟩

end Command
end CiPipeline
