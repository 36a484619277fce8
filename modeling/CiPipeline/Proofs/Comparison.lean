import CiPipeline.Proofs.LineScan
import CiPipeline.Proofs.WholeFiles

/-!
# CiPipeline.Proofs.Comparison

What `check` says about the files it finds.

* `Agrees`      — a file that can be read as text and has the lines of the expected one.
* `mismatch?`   — why a file does not, told from what stands at its place.
* `compareAll_eq` — a comparison stops at the first mismatch of the list.
* `agrees_of_grown` — new directories make no file agree, or disagree.
* `check_verdict` — so a check answers, and it makes nothing but directories on the path.
-/

namespace CiPipeline

/-- What can be read where an entry stands. -/
def Entry.content? : Entry → Option Bytes
  | .directory => none
  | .file content => some content
  | .config described => some described.content

namespace FileTree

variable {tree : FileTree} {current location : Location} {path : Path}

theorem read_ofPath_directory (hlocate : tree.locate current path = .ok location)
    (hdirectory : tree.get? location = some .directory) :
    tree.read current path = .error { cause := .isADirectory, path := path.toString } := by
  have hfind : tree.find current (WrittenPath.ofPath path).path = .ok .directory := by
    show tree.find current path = _
    rw [find, hlocate]
    simp only [hdirectory]
  rw [read, hfind]
  rfl

theorem read_ofPath_content (hlocate : tree.locate current path = .ok location) {entry : Entry}
    (hentry : tree.get? location = some entry) {content : Bytes}
    (hcontent : entry.content? = some content) : tree.read current path = .ok content := by
  cases entry with
  | directory => cases hcontent
  | file old =>
    cases hcontent
    exact read_ofPath hlocate hentry
  | config config =>
    cases hcontent
    have hfind : tree.find current (WrittenPath.ofPath path).path = .ok (.config config) := by
      show tree.find current path = _
      rw [find, hlocate]
      simp only [hentry]
    rw [read, hfind]
    rfl

end FileTree

namespace WorkflowFiles

variable {current location : Location} {tree before after : FileTree} {dir root : Path}
  {file : String × Text} {entry : Option Entry}

/-! ## One file -/

/-- A regular file that can be read as text, with the lines of the expected text. -/
def Agrees (entry : Option Entry) (text : Text) : Prop :=
  ∃ content found, entry.bind Entry.content? = some content ∧ Utf8.decode content = .ok found ∧
    Text.contentLines found = Text.contentLines text

def mismatch? (dir : Path) (file : String × Text) : Option Entry → Option Failure
  | none => some (.system { cause := .missing, path := (dir.child file.1).toString })
  | some entry =>
    match entry.content? with
    | none => some (taken (dir.child file.1))
    | some content =>
      match Utf8.decode content with
      | .error fault => some (.undecodable fault)
      | .ok found =>
        if Text.contentLines found = Text.contentLines file.2 then none else some (.stale file.1)

theorem mismatch?_eq_none_iff : mismatch? dir file entry = none ↔ Agrees entry file.2 := by
  cases entry with
  | none =>
    refine iff_of_false (Option.some_ne_none _) ?_
    rintro ⟨content, found, hcontent, -⟩
    cases hcontent
  | some entry =>
    rw [Agrees, Option.bind_some, mismatch?]
    cases entry.content? with
    | none => simp
    | some content =>
      cases hdecode : Utf8.decode content with
      | error fault => simp [hdecode]
      | ok found => simp [hdecode]

/-- What a comparison finds out about one file of the list. -/
theorem compareAll_cons (hdir : tree.Leads current dir) (hname : FileTree.Plain file.1)
    (files : List (String × Text)) :
    compareAll tree current dir (file :: files) =
      match mismatch? dir file (tree.get? (dir.resolve current ++ [file.1])) with
      | some failure => .error failure
      | none => (compareAll tree current dir files).map (dir.child file.1 :: ·) := by
  obtain ⟨name, text⟩ := file
  have hlocate := hdir.locate_child hname
  cases hentry : tree.get? (dir.resolve current ++ [name]) with
  | none =>
    rw [compareAll, readLines, FileTree.read_ofPath_missing hlocate hentry]
    rfl
  | some entry =>
    simp only [mismatch?]
    cases hcontent : entry.content? with
    | none =>
      have hdirectory : entry = .directory := by
        cases entry <;> simp_all [Entry.content?]
      rw [hdirectory] at hentry
      rw [compareAll, readLines, FileTree.read_ofPath_directory hlocate hentry]
      rfl
    | some content =>
      rw [compareAll, readLines, FileTree.read_ofPath_content hlocate hentry hcontent]
      cases hdecode : Utf8.decode content with
      | error fault => simp only [hdecode]
      | ok found =>
        simp only [hdecode, Text.normalLines_plainEnds, Text.normalLines_eq_iff]
        split <;> rfl

/-- The first file of the list that does not agree is the one reported. -/
theorem compareAll_eq (hdir : tree.Leads current dir) {files : List (String × Text)}
    (hplain : ∀ file ∈ files, FileTree.Plain file.1) :
    compareAll tree current dir files =
      match files.findSome? fun file =>
        mismatch? dir file (tree.get? (dir.resolve current ++ [file.1])) with
      | some failure => .error failure
      | none => .ok (files.map fun file => dir.child file.1) := by
  induction files with
  | nil => rfl
  | cons file files ih =>
    rw [List.forall_mem_cons] at hplain
    rw [compareAll_cons hdir hplain.1, List.findSome?_cons]
    cases mismatch? dir file (tree.get? (dir.resolve current ++ [file.1])) with
    | some failure => rfl
    | none =>
      simp only [ih hplain.2]
      split <;> rfl

/-! ## A call -/

theorem content?_of_grown {passed : Location → Prop} (h : FileTree.Grown passed before after)
    (location : Location) :
    (after.get? location).bind Entry.content? = (before.get? location).bind Entry.content? := by
  rcases h location with hsame | ⟨-, hnone, hdirectory⟩
  · rw [hsame]
  · rw [hnone, hdirectory]
    rfl

theorem agrees_of_grown {passed : Location → Prop} (h : FileTree.Grown passed before after)
    (location : Location) (text : Text) :
    Agrees (after.get? location) text ↔ Agrees (before.get? location) text := by
  rw [Agrees, Agrees, content?_of_grown h]

section

variable {settings : Settings} {files : List (String × Text)}

theorem check_of_made {made : FileTree}
    (h : expected (root.resolve current) settings = .ok files)
    (hmake : tree.makeDirectories current (directory root) = (made, .ok ())) :
    check current root settings tree =
      (made, match files.findSome? fun file => mismatch? (directory root) file
          (made.get? ((directory root).resolve current ++ [file.1])) with
        | some failure => .error failure
        | none => .ok (paths root)) := by
  have hnames := names_of_expected h
  have hdir := FileTree.makeDirectories_leads hmake
  rw [check, h, hmake]
  simp only [compareAll_eq hdir (plain_of_names hnames), paths_of_names hnames]

theorem check_of_refused {made : FileTree} {e : SystemError}
    (h : expected (root.resolve current) settings = .ok files)
    (hmake : tree.makeDirectories current (directory root) = (made, .error e)) :
    check current root settings tree = (made, .error (.system e)) := by
  rw [check, h, hmake]

/-- Whatever the outcome, a check makes nothing but directories on the path. -/
theorem check_grown (current : Location) (root : Path) (settings : Settings) (tree : FileTree) :
    FileTree.Grown ((directory root).Passes current) tree
      (check current root settings tree).1 := by
  have hgrown := FileTree.makeDirectories_grown tree current (directory root)
  cases hexpected : expected (root.resolve current) settings with
  | error e =>
    rw [check, hexpected]
    exact .refl _ tree
  | ok files =>
    rcases hmake : tree.makeDirectories current (directory root) with ⟨made, e | _⟩
    · rw [check_of_refused hexpected hmake]
      rwa [hmake] at hgrown
    · rw [check_of_made hexpected hmake]
      rwa [hmake] at hgrown

theorem check_of_open (h : expected (root.resolve current) settings = .ok files)
    (hopen : tree.Open current (directory root)) :
    (check current root settings tree).2 =
      match files.findSome? fun file => mismatch? (directory root) file
        ((check current root settings tree).1.get?
          ((directory root).resolve current ++ [file.1])) with
      | some failure => .error failure
      | none => .ok (paths root) := by
  obtain ⟨made, hmake⟩ : ∃ made, tree.makeDirectories current (directory root) = (made, .ok ()) :=
    ⟨_, Prod.ext rfl (FileTree.makeDirectories_ok_iff.mpr hopen)⟩
  rw [check_of_made h hmake]

theorem check_ok_iff (h : expected (root.resolve current) settings = .ok files)
    (hopen : tree.Open current (directory root)) :
    (check current root settings tree).2 = .ok (paths root) ↔
      ∀ file ∈ files,
        Agrees (tree.get? ((directory root).resolve current ++ [file.1])) file.2 := by
  have hgrown := check_grown current root settings tree
  have hagrees : (files.findSome? fun file => mismatch? (directory root) file
      ((check current root settings tree).1.get?
        ((directory root).resolve current ++ [file.1]))) = none ↔
      ∀ file ∈ files,
        Agrees (tree.get? ((directory root).resolve current ++ [file.1])) file.2 := by
    rw [List.findSome?_eq_none_iff]
    refine forall₂_congr fun file _ => ?_
    rw [mismatch?_eq_none_iff, agrees_of_grown hgrown]
  rw [← hagrees, check_of_open h hopen]
  split
  · rename_i failure hfailure
    rw [hfailure]
    simp
  · rename_i hnone
    simp [hnone]

theorem exists_error_of_not_open (h : expected (root.resolve current) settings = .ok files)
    (hclosed : ¬ tree.Open current (directory root)) :
    ∃ e, (check current root settings tree).2 = .error (.system e) := by
  rw [← FileTree.makeDirectories_ok_iff] at hclosed
  rcases hmake : tree.makeDirectories current (directory root) with ⟨made, e | _⟩
  · exact ⟨e, by rw [check_of_refused h hmake]⟩
  · rw [hmake] at hclosed
    exact absurd rfl hclosed

end

/-- No check changes a file, and only directories on the path may be new. If the directory of the
files is there or can be made, a check accepts exactly the files that agree with the expected ones,
and reports the first one that does not, as it finds it. -/
theorem check_verdict (current : Location) (root : Path) (settings : Settings) (tree : FileTree) :
    let place := (directory root).resolve current
    let after := (check current root settings tree).1
    let outcome := (check current root settings tree).2
    FileTree.Grown ((directory root).Passes current) tree after ∧
    (∀ e, expected (root.resolve current) settings = .error e →
      after = tree ∧ outcome = .error (.model e)) ∧
    ∀ files, expected (root.resolve current) settings = .ok files →
      files.map Prod.fst = [ciFile, cleanFile] ∧
      (tree.Open current (directory root) →
        (outcome = .ok (paths root) ↔
          ∀ file ∈ files, Agrees (tree.get? (place ++ [file.1])) file.2) ∧
        outcome = match files.findSome? fun file =>
            mismatch? (directory root) file (after.get? (place ++ [file.1])) with
          | some failure => .error failure
          | none => .ok (paths root)) ∧
      (¬ tree.Open current (directory root) → ∃ e, outcome = .error (.system e)) := by
  intro place after outcome
  refine ⟨check_grown current root settings tree, ?_, ?_⟩
  · intro e he
    have hcall : check current root settings tree = (tree, .error (.model e)) := by
      rw [check, he]
    exact ⟨congrArg Prod.fst hcall, congrArg Prod.snd hcall⟩
  · intro files hfiles
    refine ⟨names_of_expected hfiles, ?_, exists_error_of_not_open hfiles⟩
    intro hopen
    exact ⟨check_ok_iff hfiles hopen, check_of_open hfiles hopen⟩

/-- A project whose first file is up to date, with a directory where the second one belongs. -/
def halfDone (ci : Text) : FileTree :=
  ⟨.ofList [(["project"], .directory), (["project", ".github"], .directory),
    (["project", ".github", "workflows"], .directory),
    (["project", ".github", "workflows", "ci.yml"], .file (Utf8.encode ci)),
    (["project", ".github", "workflows", "clean.yml"], .directory)]⟩

/-- The second file is reported, since the first one agrees; with other settings the first one is,
and a bad key before anything is looked at. -/
theorem halfDone_verdict :
    ∃ ci, expected (project.resolve []) (showing "SHOWN" "x") =
        .ok [(ciFile, ci), (cleanFile, CleanWorkflow.document)] ∧
      (halfDone ci).Open [] (directory project) ∧
      (check [] project (showing "SHOWN" "x") (halfDone ci)).2 =
        .error (taken ((directory project).child cleanFile)) ∧
      (check [] project (showing "not a key" "") (halfDone ci)).2 =
        .error (.model (.invalidKey "not a key")) := by
  obtain ⟨ci, hci⟩ : ∃ ci, Pipeline.document (project.resolve []) (showing "SHOWN" "x") = .ok ci :=
    exists_ok_of_isOk (by decide +kernel)
  have hopen : (halfDone ci).Open [] (directory project) := by
    rw [← FileTree.makeDirectories_ok_iff]
    rfl
  have hbad : expected (project.resolve []) (showing "not a key" "") =
      .error (.invalidKey "not a key") := by decide +kernel
  have hrefused := (check_verdict [] project (showing "not a key" "") (halfDone ci)).2.1 _ hbad
  refine ⟨ci, expected_of_ok hci, hopen, ?_, hrefused.2⟩
  obtain ⟨hgrown, -, hverdict⟩ := check_verdict [] project (showing "SHOWN" "x") (halfDone ci)
  obtain ⟨-, houtcome⟩ := (hverdict _ (expected_of_ok hci)).2.1 hopen
  have hfirst : Agrees (some (.file (Utf8.encode ci))) ci :=
    ⟨_, ci, rfl, Utf8.decode_encode ci, rfl⟩
  have hci' : (check [] project (showing "SHOWN" "x") (halfDone ci)).1.get?
      ((directory project).resolve [] ++ [ciFile]) = some (.file (Utf8.encode ci)) :=
    hgrown.kept rfl
  have hclean : (check [] project (showing "SHOWN" "x") (halfDone ci)).1.get?
      ((directory project).resolve [] ++ [cleanFile]) = some .directory :=
    hgrown.kept rfl
  rw [houtcome, List.findSome?_cons, hci', mismatch?_eq_none_iff.mpr hfirst, List.findSome?_cons,
    hclean]
  rfl

end WorkflowFiles
end CiPipeline
