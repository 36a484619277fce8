import CiPipeline.Proofs.Directories
import CiPipeline.Proofs.GenerateCheck

/-!
# CiPipeline.Proofs.WholeFiles

What a tree looks like after `generate`, however the call ended.

* `Holds`        — a file of the list stands at its place with all of its text.
* `WrittenUpTo`  — the first files of a list hold their texts, the rest of the tree is as before.
* `writeText_child`, `writeAll_written` — one file, and a list of files up to the first refusal.
* `Whole`        — each file is as before or complete, in order, and nothing else changed.
* `generate_whole` — so it is after every call; a call that cannot render changes nothing.
* `detour_not_files` — a root that leads through the names of the files, and what it makes of them.
-/

namespace CiPipeline

namespace FileTree

variable {tree : FileTree} {current location : Location} {path : Path}

theorem write_ofPath_directory (hlocate : tree.locate current path = .ok location)
    (hdirectory : tree.get? location = some .directory) (content : Bytes) :
    tree.write current path content =
      .error { cause := .isADirectory, path := path.toString } := by
  have hlocate' : tree.locate current (WrittenPath.ofPath path).path = .ok location := hlocate
  rw [write, hlocate']
  simp only [hdirectory]
  rfl

end FileTree

namespace WorkflowFiles

variable {current place : Location} {tree made before after : FileTree} {dir root : Path}
  {name : String}

/-! ## One file -/

/-- How a file fails to be written, or read, whose place a directory has taken. -/
def taken (path : Path) : Failure := .system { cause := .isADirectory, path := path.toString }

theorem writeText_of_directory (hdir : tree.Leads current dir) (hname : FileTree.Plain name)
    (hdirectory : tree.get? (dir.resolve current ++ [name]) = some .directory) (text : Text) :
    writeText tree current (dir.child name) text = .error (taken (dir.child name)) := by
  rw [writeText, FileTree.write_ofPath_directory (hdir.locate_child hname) hdirectory]
  rfl

theorem writeText_of_free (hdir : tree.Leads current dir) (hname : FileTree.Plain name)
    (hfree : tree.get? (dir.resolve current ++ [name]) ≠ some .directory) (text : Text) :
    writeText tree current (dir.child name) text =
      .ok (tree.insert (dir.resolve current ++ [name]) (.file (Utf8.encode text))) := by
  rw [writeText, FileTree.write_ofPath (hdir.locate_child hname) hfree]
  rfl

/-! ## A list of files -/

/-- A file of the list stands at its place with all of its text. -/
def Holds (tree : FileTree) (place : Location) (file : String × Text) : Prop :=
  tree.get? (place ++ [file.1]) = some (.file (Utf8.encode file.2))

structure WrittenUpTo (place : Location) (written : List (String × Text))
    (before after : FileTree) : Prop where
  holds : ∀ file ∈ written, Holds after place file
  others : ∀ location, (∀ file ∈ written, location ≠ place ++ [file.1]) →
    after.get? location = before.get? location

/-- One more file in front. -/
theorem WrittenUpTo.cons {written : List (String × Text)} {file : String × Text}
    (h : WrittenUpTo place written
      (before.insert (place ++ [file.1]) (.file (Utf8.encode file.2))) after)
    (hfile : ∀ other ∈ written, other.1 ≠ file.1) :
    WrittenUpTo place (file :: written) before after := by
  constructor
  · intro other hother
    rw [List.mem_cons] at hother
    rcases hother with rfl | hother
    · have hplace : ∀ file ∈ written, place ++ [other.1] ≠ place ++ [file.1] := by
        intro file hmem e
        exact hfile file hmem (by simpa using e.symm)
      rw [Holds, h.others _ hplace, FileTree.get?_insert_self (by simp)]
    · exact h.holds other hother
  · intro location hlocation
    rw [List.forall_mem_cons] at hlocation
    rw [h.others location hlocation.2, FileTree.get?_insert_of_ne hlocation.1]

theorem writeAll_of_written {text : Text} {between : FileTree}
    (h : writeText before current (dir.child name) text = .ok between)
    (files : List (String × Text)) :
    writeAll current dir ((name, text) :: files) before =
      ((writeAll current dir files between).1,
        (writeAll current dir files between).2.map (dir.child name :: ·)) := by
  simp only [writeAll, h]
  rcases writeAll current dir files between with ⟨after, _ | _⟩ <;> rfl

/-- The outcome is that of the first file, if any, whose place a directory has taken. -/
theorem writeAll_written (hdir : tree.Leads current dir) {files : List (String × Text)}
    (hplain : ∀ file ∈ files, FileTree.Plain file.1) (hdistinct : (files.map Prod.fst).Nodup) :
    ∃ written rest, files = written ++ rest ∧
      WrittenUpTo (dir.resolve current) written tree (writeAll current dir files tree).1 ∧
      (writeAll current dir files tree).2 =
        match rest with
        | [] => .ok (files.map fun file => dir.child file.1)
        | file :: _ => .error (taken (dir.child file.1)) := by
  induction files generalizing tree with
  | nil => exact ⟨[], [], rfl, ⟨by simp, fun _ _ => rfl⟩, rfl⟩
  | cons file files ih =>
    obtain ⟨name, text⟩ := file
    rw [List.forall_mem_cons] at hplain
    rw [List.map_cons, List.nodup_cons] at hdistinct
    by_cases hfree : tree.get? (dir.resolve current ++ [name]) = some .directory
    · have hrefused : writeAll current dir ((name, text) :: files) tree =
          (tree, .error (taken (dir.child name))) := by
        rw [writeAll, writeText_of_directory hdir hplain.1 hfree]
      rw [hrefused]
      exact ⟨[], (name, text) :: files, rfl, ⟨by simp, fun _ _ => rfl⟩, rfl⟩
    · obtain ⟨written, rest, rfl, hwritten, houtcome⟩ :=
        ih (hdir.insert hfree _) hplain.2 hdistinct.2
      have hothers : ∀ other ∈ written, other.1 ≠ name := by
        intro other hother e
        exact hdistinct.1 (List.mem_map.mpr ⟨other, List.mem_append_left rest hother, e⟩)
      rw [writeAll_of_written (writeText_of_free hdir hplain.1 hfree text)]
      refine ⟨(name, text) :: written, rest, rfl, .cons hwritten hothers, ?_⟩
      rw [houtcome]
      cases rest <;> rfl

/-! ## A call -/

/-- What may be left of two trees with the files of a list between them. A directory on the path may
be new, also where a file of the list belongs: no file was there then, and none is. -/
structure Whole (place : Location) (passed : Location → Prop) (files : List (String × Text))
    (before after : FileTree) : Prop where
  others : ∀ location, (∀ file ∈ files, location ≠ place ++ [file.1]) →
    after.get? location = before.get? location ∨
      FileTree.NewDirectory passed before after location
  kept : ∀ location, before.get? location ≠ none → after.get? location ≠ none
  whole : ∀ file ∈ files, Holds after place file ∨
    after.get? (place ++ [file.1]) = before.get? (place ++ [file.1]) ∨
      FileTree.NewDirectory passed before after (place ++ [file.1])
  inOrder : files.Pairwise fun first second =>
    after.get? (place ++ [second.1]) ≠ before.get? (place ++ [second.1]) →
      Holds after place first ∨ FileTree.NewDirectory passed before after (place ++ [second.1])

section

variable {passed : Location → Prop} {written rest : List (String × Text)}

theorem WrittenUpTo.grown (hwritten : WrittenUpTo place written made after)
    (h : FileTree.Grown passed before made) {location : Location}
    (hlocation : ∀ file ∈ written, location ≠ place ++ [file.1]) :
    after.get? location = before.get? location ∨
      FileTree.NewDirectory passed before after location := by
  have hsame := hwritten.others location hlocation
  rcases h location with hbefore | ⟨hpassed, hnone, hdirectory⟩
  · exact .inl (hsame.trans hbefore)
  · exact .inr ⟨hpassed, hnone, hsame.trans hdirectory⟩

/-- First the directories, then as many files as can be written. -/
theorem WrittenUpTo.whole (hwritten : WrittenUpTo place written made after)
    (h : FileTree.Grown passed before made) (hdistinct : ((written ++ rest).map Prod.fst).Nodup) :
    Whole place passed (written ++ rest) before after := by
  rw [List.map_append, List.nodup_append] at hdistinct
  have hrest : ∀ file ∈ rest, after.get? (place ++ [file.1]) = before.get? (place ++ [file.1]) ∨
      FileTree.NewDirectory passed before after (place ++ [file.1]) := by
    intro file hfile
    refine hwritten.grown h fun other hother e => ?_
    have hname : file.1 = other.1 := by simpa using e
    exact hdistinct.2.2 other.1 (List.mem_map_of_mem hother) file.1 (List.mem_map_of_mem hfile)
      hname.symm
  constructor
  · intro location hlocation
    exact hwritten.grown h fun file hfile => hlocation file (List.mem_append_left rest hfile)
  · intro location hbefore
    by_cases hlocation : ∀ file ∈ written, location ≠ place ++ [file.1]
    · rcases hwritten.grown h hlocation with hsame | ⟨_, hnone, _⟩
      · rwa [hsame]
      · exact absurd hnone hbefore
    · push Not at hlocation
      obtain ⟨file, hfile, rfl⟩ := hlocation
      rw [hwritten.holds file hfile]
      exact Option.some_ne_none _
  · intro file hfile
    rw [List.mem_append] at hfile
    rcases hfile with hfile | hfile
    · exact .inl (hwritten.holds file hfile)
    · exact .inr (hrest file hfile)
  · rw [List.pairwise_append]
    refine ⟨?_, ?_, ?_⟩
    · exact List.pairwise_of_forall_mem_list fun first hfirst _ _ _ =>
        .inl (hwritten.holds first hfirst)
    · refine List.pairwise_of_forall_mem_list fun _ _ second hsecond hchanged => .inr ?_
      exact (hrest second hsecond).resolve_left hchanged
    · intro first hfirst _ _ _
      exact .inl (hwritten.holds first hfirst)

end

section

variable {files : List (String × Text)}

theorem names_of_expected {location : Location} {settings : Settings}
    (h : expected location settings = .ok files) : files.map Prod.fst = [ciFile, cleanFile] := by
  obtain ⟨text, hdocument⟩ := document_of_expected h
  rw [expected_of_ok hdocument] at h
  cases h
  rfl

theorem plain_of_names (h : files.map Prod.fst = [ciFile, cleanFile]) :
    ∀ file ∈ files, FileTree.Plain file.1 := by
  intro file hfile
  have hname : file.1 ∈ [ciFile, cleanFile] := h ▸ List.mem_map_of_mem hfile
  rw [List.mem_cons, List.mem_singleton] at hname
  rcases hname with hname | hname
  · exact hname ▸ plain_ciFile
  · exact hname ▸ plain_cleanFile

theorem paths_of_names (h : files.map Prod.fst = [ciFile, cleanFile]) (root : Path) :
    files.map (fun file => (directory root).child file.1) = paths root := by
  have hpaths : (files.map Prod.fst).map (directory root).child = paths root := by
    rw [h]
    rfl
  rwa [List.map_map] at hpaths

end

/-- What a call leaves when the description of the workflow can be written. -/
theorem whole_of_expected {settings : Settings} {files : List (String × Text)}
    (h : expected (root.resolve current) settings = .ok files) :
    Whole ((directory root).resolve current) ((directory root).Passes current) files tree
        (generate current root settings tree).1 ∧
      ((generate current root settings tree).2 = .ok (paths root) ∧
          (∀ file ∈ files, Holds (generate current root settings tree).1
            ((directory root).resolve current) file) ∨
        ∃ e, (generate current root settings tree).2 = .error (.system e)) := by
  have hgrown := FileTree.makeDirectories_grown tree current (directory root)
  have hnames := names_of_expected h
  have hdistinct : (files.map Prod.fst).Nodup := by
    rw [hnames]
    decide
  rcases hmake : tree.makeDirectories current (directory root) with ⟨made, e | _⟩
  · have hcall : generate current root settings tree = (made, .error (.system e)) := by
      rw [generate, h, hmake]
    have hwritten : WrittenUpTo ((directory root).resolve current) [] made made :=
      ⟨by simp, fun _ _ => rfl⟩
    rw [hmake] at hgrown
    rw [hcall]
    exact ⟨hwritten.whole hgrown hdistinct, .inr ⟨e, rfl⟩⟩
  · have hcall : generate current root settings tree =
        writeAll current (directory root) files made := by
      rw [generate, h, hmake]
    rw [hmake] at hgrown
    rw [hcall]
    obtain ⟨written, rest, rfl, hwritten, houtcome⟩ :=
      writeAll_written (FileTree.makeDirectories_leads hmake) (plain_of_names hnames) hdistinct
    refine ⟨hwritten.whole hgrown hdistinct, ?_⟩
    cases rest with
    | nil =>
      rw [List.append_nil] at hnames houtcome hwritten ⊢
      exact .inl ⟨houtcome.trans (congrArg Except.ok (paths_of_names hnames root)), hwritten.holds⟩
    | cons file more => exact .inr ⟨_, houtcome⟩

/-- Only a root that goes back somewhere can lead over the names of the files. -/
theorem not_passes_of_down (h : ".." ∉ root.parts) (current : Location) (name : String) :
    ¬ (directory root).Passes current ((directory root).resolve current ++ [name]) := by
  intro hpasses
  have hdown : ".." ∉ (directory root).parts := by
    simpa [directory, Path.child] using h
  have hlength := (Path.passes_prefix hdown hpasses).length_le
  rw [List.length_append, List.length_singleton] at hlength
  omega

/-- A description that cannot be written changes nothing. Otherwise, also when the file system
refuses something, each of the two files is as before or complete, the second one changes only after
the first one is complete, and of the rest only directories on the path may be new. A directory on
the path can be where a file belongs, if the root leads through the name of the file and back. -/
theorem generate_whole (current : Location) (root : Path) (settings : Settings) (tree : FileTree) :
    let place := (directory root).resolve current
    let after := (generate current root settings tree).1
    let outcome := (generate current root settings tree).2
    (∀ e, expected (root.resolve current) settings = .error e →
      after = tree ∧ outcome = .error (.model e)) ∧
    (∀ files, expected (root.resolve current) settings = .ok files →
      files.map Prod.fst = [ciFile, cleanFile] ∧
      Whole place ((directory root).Passes current) files tree after ∧
      (outcome = .ok (paths root) ∧ (∀ file ∈ files, Holds after place file) ∨
        ∃ e, outcome = .error (.system e))) ∧
    (".." ∉ root.parts → ∀ name, ¬ (directory root).Passes current (place ++ [name])) := by
  intro place after outcome
  refine ⟨?_, ?_, ?_⟩
  · intro e he
    have hcall : generate current root settings tree = (tree, .error (.model e)) := by
      rw [generate, he]
    exact ⟨congrArg Prod.fst hcall, congrArg Prod.snd hcall⟩
  · intro files hfiles
    exact ⟨names_of_expected hfiles, whole_of_expected hfiles⟩
  · intro hdown name
    exact not_passes_of_down hdown current name

/-- A project with an old first file, and a directory where the second one belongs. -/
def blocked : FileTree :=
  ⟨.ofList [(["project"], .directory), (["project", ".github"], .directory),
    (["project", ".github", "workflows"], .directory),
    (["project", ".github", "workflows", "ci.yml"], .file [0x78]),
    (["project", ".github", "workflows", "clean.yml"], .directory)]⟩

def project : Path := ⟨.root, ["project"]⟩

/-- The first file is written, the second one is refused, and a bad key changes nothing. -/
theorem blocked_whole :
    (∃ e, (generate [] project {} blocked).2 = .error (.system e)) ∧
    (∃ files, expected (project.resolve []) {} = .ok files ∧
      Whole ((directory project).resolve []) ((directory project).Passes []) files blocked
        (generate [] project {} blocked).1) ∧
    ¬ (directory project).Passes [] ((directory project).resolve [] ++ [ciFile]) ∧
    (generate [] project (showing "not a key" "") blocked).1 = blocked := by
  obtain ⟨files, hfiles⟩ : ∃ files, expected (project.resolve []) {} = .ok files :=
    exists_ok_of_isOk (by decide +kernel)
  have hrefused : (generate [] project {} blocked).2 ≠ .ok (paths project) := by decide +kernel
  have hbad : expected (project.resolve []) (showing "not a key" "") =
      .error (.invalidKey "not a key") := by decide +kernel
  have hwhole := (generate_whole [] project {} blocked).2.1 files hfiles
  have hsame := (generate_whole [] project (showing "not a key" "") blocked).1 _ hbad
  refine ⟨?_, ⟨files, hfiles, hwhole.2.1⟩, ?_, hsame.1⟩
  · exact hwhole.2.2.resolve_left fun h => hrefused h.1
  · exact (generate_whole [] project {} blocked).2.2 (by decide) ciFile

/-- It leads through both names, back to the project. -/
def detour : Path := Path.parse "/project/.github/workflows/ci.yml/../clean.yml/../../.."

/-- Where the files belong are new directories: neither is as before, and neither holds a text. -/
theorem detour_not_files :
    (∃ files, expected (detour.resolve ["project"]) {} = .ok files) ∧
    ∀ name ∈ [ciFile, cleanFile],
      let location := (directory detour).resolve ["project"] ++ [name]
      vacant.get? location = none ∧
        (generate ["project"] detour {} vacant).1.get? location = some .directory :=
  ⟨exists_ok_of_isOk (by decide +kernel), by decide +kernel⟩

end WorkflowFiles
end CiPipeline
