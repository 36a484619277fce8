import CiPipeline.Proofs.CommandExit

/-!
# CiPipeline.Proofs.CommandChanges

What a command may change, and what can be found as before after it.

* `Updated`        — new directories where nothing was, and files where no directory was.
* `write_cases`    — the one change that writing a file makes.
* `writeAll_keeps` — what every single write keeps is kept by all of them.
* `Updated.find_directory`, `Updated.find` — what is found through a path stays to be found there.
* `tree_of_effect`, `tree_of_run` — what may have been done to a tree when a command has ended.
* `effect_updated`, `run_updated` — whatever the outcome, the files of a change have one of the two
                     names of workflow files.
-/

namespace CiPipeline

namespace Path

theorem resolve_child {name : String} (h : name ≠ "..") (path : Path) (current : Location) :
    (path.child name).resolve current = path.resolve current ++ [name] := by
  have hdown : ".." ∉ [name] := by simpa using Ne.symm h
  have horigin : (path.child name).origin current = path.origin current := rfl
  have hparts : (path.child name).parts = path.parts ++ [name] := rfl
  rw [resolve_eq, resolve_eq, horigin, hparts, ← List.append_assoc, cancel_append_of_down _ hdown]

end Path

namespace FileTree

variable {tree before middle after : FileTree} {current location place : Location} {path : Path}
  {new file : Location → Prop}

/-! ## Updates -/

/-- A file where none of the directories was. -/
structure Rewritten (file : Location → Prop) (before after : FileTree) (location : Location) :
    Prop where
  file : file location
  free : before.get? location ≠ some .directory
  holds : ∃ content, after.get? location = some (.file content)

def Updated (new file : Location → Prop) (before after : FileTree) : Prop :=
  ∀ location, after.get? location = before.get? location ∨
    NewDirectory new before after location ∨ Rewritten file before after location

namespace Updated

theorem refl (new file : Location → Prop) (tree : FileTree) : Updated new file tree tree :=
  fun _ => .inl rfl

theorem of_grown (h : Grown new before after) (file : Location → Prop) :
    Updated new file before after :=
  fun location => (h location).imp_right .inl

theorem mono {new' : Location → Prop} (h : Updated new file before after)
    (hnew : ∀ location, new location → new' location) : Updated new' file before after :=
  fun location => (h location).imp_right fun hother =>
    hother.imp_left fun ⟨hlocation, hnone, hdirectory⟩ => ⟨hnew _ hlocation, hnone, hdirectory⟩

theorem trans (h : Updated new file before middle) (h' : Updated new file middle after) :
    Updated new file before after := by
  intro location
  rcases h location with hsame | ⟨hnew, hnone, hdirectory⟩ | ⟨hfile, hfree, content, hholds⟩
  · rcases h' location with hsame' | ⟨hnew, hnone, hdirectory⟩ | ⟨hfile, hfree, hholds⟩
    · exact .inl (hsame'.trans hsame)
    · exact .inr (.inl ⟨hnew, hsame ▸ hnone, hdirectory⟩)
    · exact .inr (.inr ⟨hfile, hsame ▸ hfree, hholds⟩)
  · rcases h' location with hsame' | ⟨-, hnone', -⟩ | ⟨-, hfree, -⟩
    · exact .inr (.inl ⟨hnew, hnone, hsame'.trans hdirectory⟩)
    · rw [hdirectory] at hnone'
      cases hnone'
    · exact absurd hdirectory hfree
  · rcases h' location with hsame' | ⟨-, hnone', -⟩ | ⟨-, -, hholds'⟩
    · exact .inr (.inr ⟨hfile, hfree, content, hsame'.trans hholds⟩)
    · rw [hholds] at hnone'
      cases hnone'
    · exact .inr (.inr ⟨hfile, hfree, hholds'⟩)

theorem insert (hfile : file location) (hfree : tree.get? location ≠ some .directory)
    (content : Bytes) : Updated new file tree (tree.insert location (.file content)) := by
  have hne : location ≠ [] := by
    rintro rfl
    exact hfree rfl
  intro other
  by_cases hother : other = location
  · subst hother
    exact .inr (.inr ⟨hfile, hfree, content, get?_insert_self hne _⟩)
  · exact .inl (get?_insert_of_ne hother _)

theorem directory (h : Updated new file before after)
    (hdirectory : before.get? location = some .directory) :
    after.get? location = some .directory := by
  rcases h location with hsame | ⟨-, hnone, -⟩ | ⟨-, hfree, -⟩
  · rw [hsame, hdirectory]
  · rw [hdirectory] at hnone
    cases hnone
  · exact absurd hdirectory hfree

/-- What no workflow file can be is as before. -/
theorem kept (h : Updated new file before after) (hfile : ¬ file location) {entry : Entry}
    (hentry : before.get? location = some entry) : after.get? location = some entry := by
  rcases h location with hsame | ⟨-, hnone, -⟩ | ⟨hfile', -, -⟩
  · rw [hsame, hentry]
  · rw [hentry] at hnone
    cases hnone
  · exact absurd hfile' hfile

theorem keepsDirectories (h : Updated new file before after) : KeepsDirectories before after :=
  fun _ => h.directory

end Updated

/-! ## What is found -/

theorem find_eq_ok_iff {entry : Entry} : tree.find current path = .ok entry ↔
    ∃ place, tree.locate current path = .ok place ∧ tree.get? place = some entry := by
  rw [find]
  cases hlocate : tree.locate current path with
  | error cause => simp
  | ok place =>
    cases hentry : tree.get? place with
    | none => simp [hentry]
    | some other => simp [hentry]

namespace Updated

theorem find_directory (h : Updated new file before after)
    (hfind : before.find current path = .ok .directory) :
    after.find current path = .ok .directory := by
  obtain ⟨place, hlocate, hdirectory⟩ := find_eq_ok_iff.mp hfind
  exact find_eq_ok_iff.mpr ⟨place, h.keepsDirectories.locate hlocate, h.directory hdirectory⟩

theorem find (h : Updated new file before after) (hfile : ¬ file (path.resolve current))
    {entry : Entry} (hfind : before.find current path = .ok entry) :
    after.find current path = .ok entry := by
  obtain ⟨place, hlocate, hentry⟩ := find_eq_ok_iff.mp hfind
  rw [← resolve_of_locate hlocate] at hfile
  exact find_eq_ok_iff.mpr ⟨place, h.keepsDirectories.locate hlocate, h.kept hfile hentry⟩

end Updated

/-! ## Writing a file -/

theorem write_cases {written : WrittenPath} {content : Bytes}
    (h : tree.write current written content = .ok after) :
    ∃ place, tree.locate current written.path = .ok place ∧
      tree.get? place ≠ some .directory ∧ after = tree.insert place (.file content) := by
  rw [write] at h
  cases hlocate : tree.locate current written.path with
  | error cause =>
    rw [hlocate] at h
    cases h
  | ok place =>
    simp only [hlocate] at h
    refine ⟨place, rfl, ?_⟩
    cases hentry : tree.get? place with
    | none =>
      cases hending : written.ending <;> simp only [hentry, hending, reduceCtorEq] at h
      exact ⟨by simp, (Except.ok.inj h).symm⟩
    | some entry =>
      cases entry with
      | directory => simp only [hentry, reduceCtorEq] at h
      | file old =>
        cases hending : written.ending <;> simp only [hentry, hending, reduceCtorEq] at h
        exact ⟨by simp, (Except.ok.inj h).symm⟩
      | config config =>
        cases hending : written.ending <;> simp only [hentry, hending, reduceCtorEq] at h
        exact ⟨by simp, (Except.ok.inj h).symm⟩

end FileTree

namespace WorkflowFiles

variable {current : Location} {tree after : FileTree} {dir root : Path}
  {new file : Location → Prop}

/-- A location with the name of one of the two files, wherever it is. -/
def FileName (location : Location) : Prop :=
  location.getLast? = some ciFile ∨ location.getLast? = some cleanFile

theorem write_of_writeText {path : Path} {text : Text}
    (h : writeText tree current path text = .ok after) :
    tree.write current path (Utf8.encode text) = .ok after := by
  rw [writeText] at h
  cases hwrite : tree.write current path (Utf8.encode text) with
  | error e =>
    rw [hwrite] at h
    cases h
  | ok written =>
    rw [hwrite] at h
    exact congrArg Except.ok (Except.ok.inj h)

theorem writeText_updated {path : Path} {text : Text} (hfile : file (path.resolve current))
    (h : writeText tree current path text = .ok after) :
    FileTree.Updated new file tree after := by
  obtain ⟨place, hlocate, hfree, rfl⟩ := FileTree.write_cases (write_of_writeText h)
  have hplace : place = path.resolve current := FileTree.resolve_of_locate hlocate
  exact .insert (hplace ▸ hfile) hfree _

/-- What every single write keeps is kept by all of them, also if a file is refused. -/
theorem writeAll_keeps {P : FileTree → Prop} {files : List (String × Text)}
    (hkeeps : ∀ written ∈ files, ∀ before after, P before →
      writeText before current (dir.child written.1) written.2 = .ok after → P after)
    (h : P tree) : P (writeAll current dir files tree).1 := by
  induction files generalizing tree with
  | nil => exact h
  | cons written files ih =>
    obtain ⟨name, text⟩ := written
    rw [List.forall_mem_cons] at hkeeps
    cases hwrite : writeText tree current (dir.child name) text with
    | error e =>
      rw [writeAll, hwrite]
      exact h
    | ok between =>
      rw [writeAll_of_written hwrite]
      exact ih hkeeps.2 (hkeeps.1 tree between h hwrite)

theorem writeAll_updated {files : List (String × Text)}
    (hfile : ∀ written ∈ files, file ((dir.child written.1).resolve current)) (tree : FileTree) :
    FileTree.Updated new file tree (writeAll current dir files tree).1 := by
  refine writeAll_keeps (fun written hwritten before after h hwrite => ?_) (.refl new file tree)
  exact h.trans (writeText_updated (hfile written hwritten) hwrite)

theorem fileName_of_names {files : List (String × Text)}
    (h : files.map Prod.fst = [ciFile, cleanFile]) :
    ∀ written ∈ files, FileName ((dir.child written.1).resolve current) := by
  intro written hwritten
  have hname : written.1 ∈ [ciFile, cleanFile] := h ▸ List.mem_map_of_mem hwritten
  rw [Path.resolve_child (plain_of_names h written hwritten).down, FileName,
    List.getLast?_append, List.getLast?_singleton]
  rw [List.mem_cons, List.mem_singleton] at hname
  exact hname.imp (congrArg some) (congrArg some)

end WorkflowFiles

namespace Command

/-- Nothing is done, or the directory is made, or the files are written into it as well. -/
theorem tree_of_effect (command : Command) (current : Location) (root : Path)
    (settings : Settings) (tree : FileTree) :
    let made := (tree.makeDirectories current (WorkflowFiles.directory root)).1
    let after := (command.effect current root settings tree).1
    after = tree ∨ after = made ∨
      ∃ files, WorkflowFiles.expected (root.resolve current) settings = .ok files ∧
        after = (WorkflowFiles.writeAll current (WorkflowFiles.directory root) files made).1 := by
  intro made after
  cases hexpected : WorkflowFiles.expected (root.resolve current) settings with
  | error e => exact .inl (congrArg Prod.fst (effect_of_model_error hexpected command))
  | ok files =>
    right
    rcases hmake : tree.makeDirectories current (WorkflowFiles.directory root) with ⟨_, e | _⟩
    · left
      cases command with
      | generate => simp only [after, made, effect, WorkflowFiles.generate, hexpected, hmake]
      | check => simp only [after, made, effect, WorkflowFiles.check, hexpected, hmake]
    · cases command with
      | generate =>
        right
        refine ⟨files, rfl, ?_⟩
        simp only [after, made, effect, WorkflowFiles.generate, hexpected, hmake]
      | check =>
        left
        simp only [after, made, effect, WorkflowFiles.check, hexpected, hmake]

theorem effect_updated (command : Command) (current : Location) (root : Path)
    (settings : Settings) (tree : FileTree) :
    FileTree.Updated ((WorkflowFiles.directory root).Passes current) WorkflowFiles.FileName tree
      (command.effect current root settings tree).1 := by
  have hmade := FileTree.makeDirectories_grown tree current (WorkflowFiles.directory root)
  rcases tree_of_effect command current root settings tree with
    hsame | hsame | ⟨files, hexpected, hsame⟩
  · rw [hsame]
    exact .refl _ _ tree
  · rw [hsame]
    exact .of_grown hmade _
  · have hnames := WorkflowFiles.names_of_expected hexpected
    rw [hsame]
    exact .trans (.of_grown hmade _)
      (WorkflowFiles.writeAll_updated (WorkflowFiles.fileName_of_names hnames) _)

/-- The tree is left as it was, or changed by the effect of the command. -/
theorem tree_of_run (space : Workspace) (options : Options) (command : Command) :
    (run space options command).1.tree = space.tree ∨ ∃ root settings,
      (run space options command).1.tree =
        (command.effect space.current root settings space.tree).1 := by
  cases hroot : rootOf space options with
  | error f =>
    rw [run_of_root_error hroot]
    exact .inl rfl
  | ok root =>
    cases hsettings : space.resolveSettings root options.config with
    | error f =>
      rw [run_of_unresolved hroot hsettings]
      exact .inl (Workspace.afterResolving_tree space root options.config)
    | ok settings =>
      rw [run_of_resolved hroot hsettings]
      exact .inr ⟨root, settings, rfl⟩

/-- Whatever a command is asked for, and however it ends. -/
theorem run_updated (space : Workspace) (options : Options) (command : Command) :
    FileTree.Updated (fun _ => True) WorkflowFiles.FileName space.tree
      (run space options command).1.tree := by
  rcases tree_of_run space options command with hsame | ⟨root, settings, heffect⟩
  · rw [hsame]
    exact .refl _ _ _
  · rw [heffect]
    exact (effect_updated command space.current root settings space.tree).mono fun _ _ => trivial

end Command
end CiPipeline
