import CiPipeline.Proofs.SoundWorkspace

/-!
# CiPipeline.Proofs.SettingsKept

Why a command finds the root and the settings that the command before it found.

* `Connected.find`        — what stands somewhere is found by the straight way.
* `Updated.find_back`     — a file found that is no workflow file was there before.
* `Workspace.replacing`   — the workspace with another tree.
* `Surfaces`              — the config file comes in sight once the directories are made.
* `holds_replacing_iff`   — it does so exactly if it surfaces.
* `rootOf_replacing`, `resolveSettings_replacing` — root and settings, after workflow files and the
                            directories above them appeared.
-/

namespace CiPipeline

namespace Path

theorem resolve_of_down {path : Path} {current : Location}
    (h : ".." ∉ FileTree.way current path) :
    path.resolve current = FileTree.way current path := by
  have hcancel := cancel_append_of_down [] h
  rw [List.nil_append] at hcancel
  exact hcancel

end Path

namespace FileTree

variable {tree before after : FileTree} {current : Location} {path : Path}
  {new file : Location → Prop} {entry : Entry}

theorem holdsFile_iff :
    tree.holdsFile current path = true ↔
      ∃ entry, tree.find current path = .ok entry ∧ entry ≠ .directory := by
  rw [holdsFile, holds, holdsDirectory]
  cases tree.find current path with
  | error cause => simp [Except.isOk, Except.toBool]
  | ok entry => simp [Except.isOk, Except.toBool]

theorem Connected.find (h : tree.Connected) (hnull : path.holdsNull = false)
    (hdown : ".." ∉ way current path) (hentry : tree.get? (path.resolve current) = some entry) :
    tree.find current path = .ok entry := by
  have hway := Path.resolve_of_down hdown
  refine find_eq_ok_iff.mpr ⟨path.resolve current, ?_, hentry⟩
  have hthere : tree.get? ([] ++ way current path) ≠ none := by
    rw [List.nil_append, ← hway, hentry]
    exact Option.some_ne_none entry
  rw [locate_eq, hnull, hway]
  exact h.walk_down hdown hthere

theorem Updated.there (h : Updated new file before after) {location : Location}
    (hbefore : before.get? location ≠ none) : after.get? location ≠ none := by
  rcases h location with hsame | ⟨-, hnone, -⟩ | ⟨-, -, content, hholds⟩
  · rwa [hsame]
  · exact absurd hnone hbefore
  · rw [hholds]
    exact Option.some_ne_none _

theorem Leads.above {name : String} (h : tree.Leads current (path.child name)) :
    tree.Leads current path := by
  obtain ⟨place, hlocate, -⟩ := h
  obtain ⟨hnull, hwalk⟩ := walk_of_locate hlocate
  rw [Path.holdsNull_child, Bool.or_eq_false_iff] at hnull
  rw [way_child] at hwalk
  obtain ⟨middle, hway, hlast⟩ := exists_walk_of_append hwalk
  refine ⟨middle, ?_, directory_of_walk_cons hlast⟩
  rw [locate_eq, hnull.1]
  exact hway

theorem Updated.find_back (h : Updated new file before after) (hconnected : before.Connected)
    (hdown : ".." ∉ way current path) (hfile : ¬ file (path.resolve current))
    (hfind : after.find current path = .ok entry) (hentry : entry ≠ .directory) :
    before.find current path = .ok entry := by
  obtain ⟨place, hlocate, hafter⟩ := find_eq_ok_iff.mp hfind
  obtain rfl := resolve_of_locate hlocate
  refine hconnected.find (walk_of_locate hlocate).1 hdown ?_
  rcases h (path.resolve current) with hsame | ⟨-, -, hdirectory⟩ | ⟨hfile', -, -⟩
  · rw [← hsame, hafter]
  · rw [hdirectory] at hafter
    exact absurd (Option.some.inj hafter).symm hentry
  · exact absurd hfile' hfile

end FileTree

namespace WorkflowFiles

theorem not_fileName_child {name : String} (hdown : name ≠ "..") (hci : name ≠ ciFile)
    (hclean : name ≠ cleanFile) (path : Path) (current : Location) :
    ¬ FileName ((path.child name).resolve current) := by
  rw [Path.resolve_child hdown, FileName, List.getLast?_append, List.getLast?_singleton]
  simpa using ⟨hci, hclean⟩

theorem name_of_fileName {location : Location} (h : FileName location) :
    (Path.ofLocation location).name = ciFile ∨ (Path.ofLocation location).name = cleanFile := by
  have hname : (Path.ofLocation location).name = location.getLast?.getD "" :=
    List.getLastD_eq_getLast?
  rw [hname]
  exact h.imp (fun hci => by rw [hci]; rfl) (fun hclean => by rw [hclean]; rfl)

end WorkflowFiles

/-! ## The root -/

namespace Workspace

variable {space : Workspace} {tree : FileTree} {new : Location → Prop} {root : Path}

def replacing (space : Workspace) (tree : FileTree) : Workspace := { space with tree := tree }

theorem eq_of_absolute {path absolute : Path} (h : space.absolute path = .ok absolute) :
    absolute = Path.ofLocation (path.resolve space.current) := by
  rw [Workspace.absolute] at h
  split at h
  · cases h
  · split at h
    · exact (Except.ok.inj h).symm
    · cases h

/-- Nothing can be asked from a current directory that was deleted. -/
theorem inUse_of_projectRoot (h : space.projectRoot "." = .ok root) : space.stranded = false := by
  rw [projectRoot, absolute] at h
  cases hstranded : space.stranded with
  | false => rfl
  | true =>
    have hnull : (Path.parse ".").holdsNull = false := rfl
    have habsolute : (Path.parse ".").isAbsolute = false := rfl
    simp only [hnull, habsolute, hstranded, Bool.not_true, Bool.or_false, Bool.false_eq_true,
      if_false, reduceCtorEq] at h

theorem Standing.replacing (h : space.Standing)
    (hupdated : FileTree.Updated new WorkflowFiles.FileName space.tree tree) :
    (space.replacing tree).Standing :=
  ⟨h.inUse, h.down, hupdated.find_directory h.found⟩

end Workspace

namespace Command

variable {space : Workspace} {tree : FileTree} {new : Location → Prop} {options : Options}
  {root : Path}

/-- A root that is given, or one that is asked for. -/
theorem rootOf_cases (h : rootOf space options = .ok root) :
    (options.root.getD "" ≠ "" ∧ space.absolute (Path.parse (options.root.getD "")) = .ok root) ∨
      (options.root.getD "" = "" ∧ space.projectRoot "." = .ok root) := by
  rw [rootOf] at h
  cases hgiven : options.root with
  | none =>
    rw [hgiven] at h
    exact .inr ⟨rfl, h⟩
  | some given =>
    simp only [hgiven] at h
    split at h
    · rename_i hempty
      exact .inr ⟨String.isEmpty_iff.mp hempty, h⟩
    · rename_i hempty
      exact .inl ⟨fun heq => hempty (String.isEmpty_iff.mpr heq), h⟩

theorem rootOf_replacing (hsound : space.Sound)
    (hupdated : FileTree.Updated new WorkflowFiles.FileName space.tree tree)
    (h : rootOf space options = .ok root) : rootOf (space.replacing tree) options = .ok root := by
  have hproject (h : space.projectRoot "." = .ok root) :
      (space.replacing tree).projectRoot "." = .ok root := by
    have hstanding := hsound.standing (Workspace.inUse_of_projectRoot h)
    rw [hstanding.projectRoot] at h
    rw [(hstanding.replacing hupdated).projectRoot]
    exact h
  rw [rootOf] at h ⊢
  split
  · rename_i hgiven
    rw [hgiven] at h
    exact hproject h
  · rename_i given hgiven
    simp only [hgiven] at h
    split
    · rename_i hempty
      rw [if_pos hempty] at h
      exact hproject h
    · rename_i hempty
      rw [if_neg hempty] at h
      exact h

/-- A root that is given is resolved first. -/
theorem down_of_given (h : rootOf space options = .ok root) (hgiven : options.root.getD "" ≠ "") :
    ".." ∉ root.parts := by
  rcases rootOf_cases h with ⟨-, habsolute⟩ | ⟨hnone, -⟩
  · rw [Workspace.eq_of_absolute habsolute]
    exact Path.down_resolve _ space.current
  · exact absurd hnone hgiven

/-- A root is looked up straight, if it has no step back itself. -/
theorem down_way_of_rootOf (hsound : space.Sound) (h : rootOf space options = .ok root)
    (hroot : ".." ∉ root.parts) : ".." ∉ FileTree.way space.current root := by
  rw [FileTree.way]
  split
  · exact hroot
  · rename_i hrelative
    rcases rootOf_cases h with ⟨-, habsolute⟩ | ⟨-, hproject⟩
    · rw [Workspace.eq_of_absolute habsolute] at hrelative
      exact absurd rfl hrelative
    · have hstanding := hsound.standing (Workspace.inUse_of_projectRoot hproject)
      rw [List.mem_append, not_or]
      exact ⟨hstanding.down, hroot⟩

end Command

/-! ## Config files -/

namespace Workspace

variable {space : Workspace} {tree : FileTree} {new : Location → Prop} {root path : Path}
  {entry : Entry}

theorem configAt_replacing
    (hupdated : FileTree.Updated new WorkflowFiles.FileName space.tree tree) {config : Path}
    (h : space.configAt config = .ok (path, entry)) :
    (space.replacing tree).configAt config = .ok (path, entry) := by
  obtain ⟨expanded, hexpand, habsolute, hfind, hsuffix⟩ := configAt_cases h
  have hpath := eq_of_absolute habsolute
  have hresolve : path.resolve space.current = expanded.resolve space.current := by
    rw [hpath]
    exact (Path.cancel_append_of_down [] (Path.down_resolve _ _))
  have hfile : ¬ WorkflowFiles.FileName (path.resolve space.current) := by
    intro hname
    rw [hresolve] at hname
    rcases WorkflowFiles.name_of_fileName hname with hci | hclean
    · rw [hpath, hci] at hsuffix
      revert hsuffix
      decide
    · rw [hpath, hclean] at hsuffix
      revert hsuffix
      decide
  have hexpand' : (space.replacing tree).expandHome config = .ok expanded := hexpand
  have habsolute' : (space.replacing tree).absolute expanded = .ok path := habsolute
  have hfind' : (space.replacing tree).tree.find (space.replacing tree).current path = .ok entry :=
    hupdated.find hfile hfind
  rw [configAt, hexpand']
  simp only [habsolute', hfind', if_pos hsuffix]

theorem programIn_eq_ok_iff : space.programIn path = .ok entry ↔
    space.tree.holdsFile space.current (initialFile path) = false ∧
      space.tree.find space.current (programFile path) = .ok entry ∧ entry ≠ .directory := by
  rw [programIn]
  cases space.tree.holdsFile space.current (initialFile path) with
  | true => simp
  | false =>
    rcases space.tree.find space.current (programFile path) with cause | _ | content | config
    · simp only [Bool.false_eq_true, if_false, reduceCtorEq, false_and, and_false, iff_false]
      split <;> simp
    · simp only [Bool.false_eq_true, if_false]
      split <;> simp +contextual
    · simp only [Bool.false_eq_true, if_false, true_and]
      constructor
      · rintro ⟨⟩
        simp
      · rintro ⟨⟨⟩, -⟩
        rfl
    · simp only [Bool.false_eq_true, if_false, true_and]
      constructor
      · rintro ⟨⟩
        simp
      · rintro ⟨⟨⟩, -⟩
        rfl

/-- No workflow file is an initial file or a program. -/
theorem programIn_replacing (hconnected : space.tree.Connected)
    (hupdated : FileTree.Updated new WorkflowFiles.FileName space.tree tree)
    (hpath : ".." ∉ FileTree.way space.current path) (h : space.programIn path = .ok entry) :
    (space.replacing tree).programIn path = .ok entry := by
  obtain ⟨hinitial, hprogram, hentry⟩ := programIn_eq_ok_iff.mp h
  refine programIn_eq_ok_iff.mpr ⟨?_, ?_, hentry⟩
  · by_contra hfile
    obtain ⟨found, hfound, hne⟩ := FileTree.holdsFile_iff.mp (Bool.not_eq_false _ ▸ hfile)
    have hdown : ".." ∉ FileTree.way space.current (initialFile path) := by
      rw [initialFile, package, FileTree.way_child, FileTree.way_child]
      simpa using hpath
    have hname : ¬ WorkflowFiles.FileName ((initialFile path).resolve space.current) :=
      WorkflowFiles.not_fileName_child (by decide) (by decide) (by decide) _ _
    have hback := hupdated.find_back hconnected hdown hname hfound hne
    exact absurd (FileTree.holdsFile_iff.mpr ⟨found, hback, hne⟩) (by simp [hinitial])
  · have hname : ¬ WorkflowFiles.FileName ((programFile path).resolve space.current) :=
      WorkflowFiles.not_fileName_child (by decide) (by decide) (by decide) _ _
    exact hupdated.find hname hprogram

theorem runConfig_replacing (hconnected : space.tree.Connected)
    (hupdated : FileTree.Updated new WorkflowFiles.FileName space.tree tree)
    (hpath : ".." ∉ FileTree.way space.current path) {settings : Settings}
    (h : space.runConfig path entry = .ok settings) :
    (space.replacing tree).runConfig path entry = .ok settings := by
  rw [runConfig] at h ⊢
  have hloaded : (space.replacing tree).loadedDirectories = space.loadedDirectories := rfl
  rw [hloaded]
  split
  · rename_i hdirectory
    rw [if_pos hdirectory] at h
    cases hprogram : space.programIn path with
    | error lack =>
      rw [hprogram] at h
      cases h
    | ok program =>
      rw [hprogram] at h
      rw [programIn_replacing hconnected hupdated hpath hprogram]
      exact h
  · rename_i hfile
    rwa [if_neg hfile] at h

theorem loadSettings_replacing (hconnected : space.tree.Connected)
    (hupdated : FileTree.Updated new WorkflowFiles.FileName space.tree tree) {config : Path}
    {settings : Settings} (h : space.loadSettings config = .ok settings) :
    (space.replacing tree).loadSettings config = .ok settings := by
  rw [loadSettings] at h ⊢
  cases hconfig : space.configAt config with
  | error f =>
    rw [hconfig] at h
    cases h
  | ok found =>
    obtain ⟨path, entry⟩ := found
    simp only [hconfig] at h
    obtain ⟨expanded, -, habsolute, -⟩ := configAt_cases hconfig
    have hpath : ".." ∉ FileTree.way space.current path := by
      rw [eq_of_absolute habsolute]
      exact Path.down_resolve expanded space.current
    simp only [configAt_replacing hupdated hconfig]
    exact runConfig_replacing hconnected hupdated hpath h

/-! ## Config files that come in sight -/

/-- The config file of a project is not found now, but will be once the directory of its workflow
files is there. -/
def Surfaces (space : Workspace) (root : Path) : Prop :=
  let location := (root.child defaultConfig).resolve space.current
  space.tree.holds space.current (root.child defaultConfig) = false ∧
    (space.tree.get? location ≠ none ∨
      (WorkflowFiles.directory root).Passes space.current location)

instance (space : Workspace) (root : Path) : Decidable (space.Surfaces root) :=
  inferInstanceAs (Decidable (_ ∧ (¬ _ ∨ _)))

/-- Where the way to the root is straight, what is there is found, and directories of the root stand
elsewhere. -/
theorem not_surfaces_of_down (hconnected : space.tree.Connected) (hnull : root.holdsNull = false)
    (hdown : ".." ∉ FileTree.way space.current root) : ¬ space.Surfaces root := by
  rintro ⟨hmissing, hentry | hpasses⟩
  · obtain ⟨entry, hentry⟩ := Option.ne_none_iff_exists'.mp hentry
    have hnull' : (root.child defaultConfig).holdsNull = false := by
      rw [Path.holdsNull_child, hnull]
      decide
    have hdown' : ".." ∉ FileTree.way space.current (root.child defaultConfig) := by
      rw [FileTree.way_child]
      simpa [defaultConfig] using hdown
    rw [FileTree.holds, hconnected.find hnull' hdown' hentry] at hmissing
    cases hmissing
  · have hparts : ".." ∉ (WorkflowFiles.directory root).parts := by
      rw [FileTree.way_eq, List.mem_append, not_or] at hdown
      simpa [WorkflowFiles.directory, Path.child] using hdown.2
    have hprefix := Path.passes_prefix hparts hpasses
    rw [WorkflowFiles.directory, Path.resolve_child (by decide), Path.resolve_child (by decide),
      Path.resolve_child (by decide), List.append_assoc, List.prefix_append_right_inj] at hprefix
    revert hprefix
    decide

/-- Only a root that is printed by version control can be the exception. -/
theorem not_surfaces_of_rootOf (hsound : space.Sound) {options : Command.Options}
    (h : Command.rootOf space options = .ok root) (hnull : root.holdsNull = false)
    (hprinted : options.root.getD "" = "" → ".." ∈ root.parts → ¬ space.Surfaces root) :
    ¬ space.Surfaces root := by
  by_cases hup : ".." ∈ root.parts
  · by_cases hgiven : options.root.getD "" = ""
    · exact hprinted hgiven hup
    · exact absurd hup (Command.down_of_given h hgiven)
  · exact not_surfaces_of_down hsound.connected hnull (Command.down_way_of_rootOf hsound h hup)

/-- Once the directory is there, the config file is found that was found before, and besides one
that was out of sight. -/
theorem holds_replacing_iff
    (hupdated : FileTree.Updated ((WorkflowFiles.directory root).Passes space.current)
      WorkflowFiles.FileName space.tree tree)
    (hleads : tree.Leads space.current (WorkflowFiles.directory root)) :
    tree.holds space.current (root.child defaultConfig) = true ↔
      space.tree.holds space.current (root.child defaultConfig) = true ∨ space.Surfaces root := by
  have hname : ¬ WorkflowFiles.FileName ((root.child defaultConfig).resolve space.current) :=
    WorkflowFiles.not_fileName_child (by decide) (by decide) (by decide) _ _
  constructor
  · intro hafter
    obtain ⟨entry, hfind⟩ := exists_ok_of_isOk hafter
    obtain ⟨place, hlocate, hentry⟩ := FileTree.find_eq_ok_iff.mp hfind
    obtain rfl := FileTree.resolve_of_locate hlocate
    by_cases hbefore : space.tree.holds space.current (root.child defaultConfig) = true
    · exact .inl hbefore
    · refine .inr ⟨by simpa using hbefore, ?_⟩
      rcases hupdated ((root.child defaultConfig).resolve space.current) with
        hsame | ⟨hpasses, -, -⟩ | ⟨hfile, -, -⟩
      · exact .inl (by rw [← hsame, hentry]; exact Option.some_ne_none entry)
      · exact .inr hpasses
      · exact absurd hfile hname
  · rintro (hbefore | ⟨-, hthere⟩)
    · obtain ⟨entry, hfind⟩ := exists_ok_of_isOk hbefore
      rw [FileTree.holds, hupdated.find hname hfind]
      rfl
    · have hlocate : tree.locate space.current (root.child defaultConfig) =
          .ok (root.resolve space.current ++ [defaultConfig]) :=
        hleads.above.above.locate_child ⟨by decide, by decide⟩
      rw [← Path.resolve_child (by decide)] at hlocate
      have hentry : tree.get? ((root.child defaultConfig).resolve space.current) ≠ none := by
        rcases hthere with hentry | hpasses
        · exact hupdated.there hentry
        · rw [hleads.directory_of_passes hpasses]
          exact Option.some_ne_none _
      obtain ⟨entry, hentry⟩ := Option.ne_none_iff_exists'.mp hentry
      rw [FileTree.holds, FileTree.find_eq_ok_iff.mpr ⟨_, hlocate, hentry⟩]
      rfl

theorem resolveSettings_replacing (hconnected : space.tree.Connected) {config : Option String}
    (hsurfaces : config = none → ¬ space.Surfaces root)
    (hupdated : FileTree.Updated ((WorkflowFiles.directory root).Passes space.current)
      WorkflowFiles.FileName space.tree tree)
    (hleads : tree.Leads space.current (WorkflowFiles.directory root)) {settings : Settings}
    (h : space.resolveSettings root config = .ok settings) :
    (space.replacing tree).resolveSettings root config = .ok settings := by
  have hpath : (space.replacing tree).configPath root config = space.configPath root config := by
    cases config with
    | some config => rfl
    | none =>
      have hholds : tree.holds space.current (root.child defaultConfig) =
          space.tree.holds space.current (root.child defaultConfig) := by
        rw [Bool.eq_iff_iff, holds_replacing_iff hupdated hleads]
        exact or_iff_left (hsurfaces rfl)
      have htree : (space.replacing tree).tree = tree := rfl
      have hcurrent : (space.replacing tree).current = space.current := rfl
      rw [configPath, configPath, htree, hcurrent, hholds]
  rw [resolveSettings] at h ⊢
  rw [hpath]
  cases hconfig : space.configPath root config with
  | none =>
    rw [hconfig] at h
    exact h
  | some path =>
    rw [hconfig] at h
    exact loadSettings_replacing hconnected hupdated h

end Workspace
end CiPipeline
