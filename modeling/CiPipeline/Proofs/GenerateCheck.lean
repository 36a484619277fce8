import CiPipeline.Proofs.FileTree
import CiPipeline.Proofs.LineEnds
import CiPipeline.Proofs.Results
import CiPipeline.Proofs.Utf8RoundTrip
import CiPipeline.WorkflowFiles

/-!
# CiPipeline.Proofs.GenerateCheck

What a check finds after any calls on a project that was empty before them.

* `Session.run`        — the calls one after the other, the settings last written kept beside them.
* `Kept`               — the two files hold what was written, or are both missing.
* `Prepared`           — so they will once their directory is made.
* `prepared_step`, `prepared_run` — every call keeps it, the failing ones as well.
* `check_after_calls`  — the outcome of a check, known from the settings last written.
-/

namespace CiPipeline
namespace WorkflowFiles

inductive Call where
  | generate (settings : Settings)
  | check (settings : Settings)

/-- A tree, and the settings of the last `generate` that came to its end. -/
structure Session where
  tree : FileTree
  written : Option Settings := none

/-- The root of a project leads to an empty directory, or to a place under one. -/
def EmptyProject (tree : FileTree) (current : Location) (root : Path) : Prop :=
  ∃ (project : Path) (place : Location) (names : List String),
    root = names.foldl Path.child project ∧ (∀ name ∈ names, FileTree.Plain name) ∧
      tree.EmptyAt current project place

def paths (root : Path) : List Path :=
  [(directory root).child ciFile, (directory root).child cleanFile]

/-- How a check fails that finds no files. -/
def ciMissing (root : Path) : Failure :=
  .system { cause := .missing, path := ((directory root).child ciFile).toString }

/-- The lines of the first document, the only one that depends on settings. -/
def ciLines (root : Location) (settings : Settings) : Except ModelError Text :=
  (Pipeline.document root settings).map Text.normalLines

section

variable (current : Location) (root : Path)

def Session.step (session : Session) : Call → Session
  | .generate settings =>
    { tree := (generate current root settings session.tree).1
      written := if (generate current root settings session.tree).2.isOk then some settings
        else session.written }
  | .check settings => { session with tree := (check current root settings session.tree).1 }

def Session.run (calls : List Call) (session : Session) : Session :=
  calls.foldl (Session.step current root) session

/-- What a check has to say when the settings last written are known. -/
def verdict (written : Option Settings) (settings : Settings) : Except Failure (List Path) :=
  match expected (root.resolve current) settings with
  | .error e => .error (.model e)
  | .ok _ =>
    match written with
    | none => .error (ciMissing root)
    | some last =>
      if ciLines (root.resolve current) settings = ciLines (root.resolve current) last then
        .ok (paths root)
      else .error (.stale ciFile)

end

variable {current place : Location} {root : Path} {tree : FileTree} {document : Option Text}

theorem expected_of_error {root : Location} {settings : Settings} {e : ModelError}
    (h : Pipeline.document root settings = .error e) : expected root settings = .error e := by
  rw [expected, h]
  rfl

theorem expected_of_ok {root : Location} {settings : Settings} {text : Text}
    (h : Pipeline.document root settings = .ok text) :
    expected root settings = .ok [(ciFile, text), (cleanFile, CleanWorkflow.document)] := by
  rw [expected, h]
  rfl

theorem document_of_expected {root : Location} {settings : Settings} {files : List (String × Text)}
    (h : expected root settings = .ok files) :
    ∃ text, Pipeline.document root settings = .ok text := by
  cases hdocument : Pipeline.document root settings with
  | error e => rw [expected_of_error hdocument] at h; cases h
  | ok text => exact ⟨text, rfl⟩

theorem plain_ciFile : FileTree.Plain ciFile := ⟨by decide, by decide⟩

theorem plain_cleanFile : FileTree.Plain cleanFile := ⟨by decide, by decide⟩

/-! ## The two files -/

/-- The directory of the files is there, and the files hold the document written last. -/
structure Kept (tree : FileTree) (current : Location) (root : Path) (place : Location)
    (document : Option Text) : Prop where
  located : tree.locate current (directory root) = .ok place
  directory : tree.get? place = some .directory
  ci : tree.get? (place ++ [ciFile]) = document.map fun text => .file (Utf8.encode text)
  clean : tree.get? (place ++ [cleanFile]) =
    document.map fun _ => .file (Utf8.encode CleanWorkflow.document)

namespace Kept

theorem makeDirectories (h : Kept tree current root place document) :
    tree.makeDirectories current (WorkflowFiles.directory root) = (tree, .ok ()) :=
  FileTree.makeDirectories_of_made
    (FileTree.makeDirectory_of_directory h.located h.directory)

theorem locate_ciFile (h : Kept tree current root place document) :
    tree.locate current ((WorkflowFiles.directory root).child ciFile) =
      .ok (place ++ [ciFile]) :=
  FileTree.locate_child h.located h.directory plain_ciFile

theorem locate_cleanFile (h : Kept tree current root place document) :
    tree.locate current ((WorkflowFiles.directory root).child cleanFile) =
      .ok (place ++ [cleanFile]) :=
  FileTree.locate_child h.located h.directory plain_cleanFile

/-- Both files are written, whatever they held before. -/
theorem writeAll (h : Kept tree current root place document) (text : Text) :
    ∃ after, writeAll current (WorkflowFiles.directory root)
        [(ciFile, text), (cleanFile, CleanWorkflow.document)] tree = (after, .ok (paths root)) ∧
      Kept after current root place (some text) := by
  have hci : tree.get? (place ++ [ciFile]) ≠ some .directory := by
    rw [h.ci]
    cases document <;> simp
  have hclean : tree.get? (place ++ [cleanFile]) ≠ some .directory := by
    rw [h.clean]
    cases document <;> simp
  have hnames : place ++ [cleanFile] ≠ place ++ [ciFile] := by
    simp [ciFile, cleanFile]
  let between := tree.insert (place ++ [ciFile]) (.file (Utf8.encode text))
  let after := between.insert (place ++ [cleanFile]) (.file (Utf8.encode CleanWorkflow.document))
  have hclean' : between.get? (place ++ [cleanFile]) ≠ some .directory := by
    rw [FileTree.get?_insert_of_ne hnames]
    exact hclean
  have hplace : ∀ name, place ≠ place ++ [name] := by simp
  have hfirst : writeText tree current ((WorkflowFiles.directory root).child ciFile) text =
      .ok between := by
    rw [writeText, FileTree.write_ofPath h.locate_ciFile hci]
    rfl
  have hsecond : writeText between current ((WorkflowFiles.directory root).child cleanFile)
      CleanWorkflow.document = .ok after := by
    rw [writeText, FileTree.write_ofPath (FileTree.locate_insert hci _ h.locate_cleanFile) hclean']
    rfl
  refine ⟨after, ?_, ?_, ?_, ?_, ?_⟩
  · simp only [WorkflowFiles.writeAll, hfirst, hsecond]
    rfl
  · exact FileTree.locate_insert hclean' _ (FileTree.locate_insert hci _ h.located)
  · rw [FileTree.get?_insert_of_ne (hplace _), FileTree.get?_insert_of_ne (hplace _)]
    exact h.directory
  · rw [FileTree.get?_insert_of_ne hnames.symm, FileTree.get?_insert_self (by simp)]
    rfl
  · rw [FileTree.get?_insert_self (by simp)]
    rfl

/-- What is read back differs from what was written only in line ends. -/
theorem readLines_of_file {path : Path} {location : Location} {text : Text}
    (hlocate : tree.locate current path = .ok location)
    (hfile : tree.get? location = some (.file (Utf8.encode text))) :
    readLines tree current path = .ok (Text.normalLines text) := by
  rw [readLines, FileTree.read_ofPath hlocate hfile]
  simp only [Utf8.decode_encode, Text.normalLines_plainEnds]

theorem compareAll_none (h : Kept tree current root place none) (text : Text) :
    compareAll tree current (WorkflowFiles.directory root)
        [(ciFile, text), (cleanFile, CleanWorkflow.document)] =
      .error (ciMissing root) := by
  rw [compareAll, readLines, FileTree.read_ofPath_missing h.locate_ciFile h.ci]
  rfl

theorem compareAll_some {old : Text} (h : Kept tree current root place (some old)) (text : Text) :
    compareAll tree current (WorkflowFiles.directory root)
        [(ciFile, text), (cleanFile, CleanWorkflow.document)] =
      if Text.normalLines old = Text.normalLines text then .ok (paths root)
      else .error (.stale ciFile) := by
  have hci := readLines_of_file h.locate_ciFile h.ci
  have hclean := readLines_of_file h.locate_cleanFile h.clean
  simp only [compareAll, hci, hclean, if_true]
  rfl

end Kept

/-! ## Every call -/

/-- Once the directory of the files is made, the files hold the document written last. -/
def Prepared (current : Location) (root : Path) (tree : FileTree) (document : Option Text) : Prop :=
  ∃ made place, tree.makeDirectories current (directory root) = (made, .ok ()) ∧
    Kept made current root place document

theorem Kept.prepared (h : Kept tree current root place document) :
    Prepared current root tree document :=
  ⟨tree, place, h.makeDirectories, h⟩

theorem EmptyProject.prepared (h : EmptyProject tree current root) :
    Prepared current root tree none := by
  obtain ⟨project, place, names, rfl, hnames, hempty⟩ := h
  have hdirectory : directory (names.foldl Path.child project) =
      (names ++ [".github", "workflows"]).foldl Path.child project := by
    rw [List.foldl_append]
    rfl
  have hplain : ∀ name ∈ names ++ [".github", "workflows"], FileTree.Plain name := by
    intro name hname
    rw [List.mem_append, List.mem_cons, List.mem_singleton] at hname
    rcases hname with hname | rfl | rfl
    · exact hnames name hname
    · exact ⟨by decide, by decide⟩
    · exact ⟨by decide, by decide⟩
  obtain ⟨made, hmade, hnew⟩ := hempty.makeDirectories hplain
  rw [← hdirectory] at hmade hnew
  exact ⟨made, _, hmade, hnew.located, hnew.directory, hnew.empty _ (by simp),
    hnew.empty _ (by simp)⟩

section

variable {settings : Settings}

theorem generate_of_error {e : ModelError}
    (h : Pipeline.document (root.resolve current) settings = .error e) :
    generate current root settings tree = (tree, .error (.model e)) := by
  rw [generate, expected_of_error h]

theorem generate_of_ok (hprepared : Prepared current root tree document) {text : Text}
    (h : Pipeline.document (root.resolve current) settings = .ok text) :
    ∃ after, generate current root settings tree = (after, .ok (paths root)) ∧
      Prepared current root after (some text) := by
  obtain ⟨made, place, hmade, hkept⟩ := hprepared
  obtain ⟨after, hwrite, hafter⟩ := hkept.writeAll text
  refine ⟨after, ?_, hafter.prepared⟩
  rw [generate, expected_of_ok h, hmade]
  exact hwrite

theorem check_of_error {e : ModelError}
    (h : Pipeline.document (root.resolve current) settings = .error e) :
    check current root settings tree = (tree, .error (.model e)) := by
  rw [check, expected_of_error h]

/-- A check makes the directory, and changes no file. -/
theorem check_of_ok (hprepared : Prepared current root tree document) {text : Text}
    (h : Pipeline.document (root.resolve current) settings = .ok text) :
    Prepared current root (check current root settings tree).1 document ∧
      (check current root settings tree).2 =
        match document with
        | none => .error (ciMissing root)
        | some old =>
          if Text.normalLines old = Text.normalLines text then .ok (paths root)
          else .error (.stale ciFile) := by
  obtain ⟨made, place, hmade, hkept⟩ := hprepared
  have hcheck : check current root settings tree = (made, compareAll made current (directory root)
      [(ciFile, text), (cleanFile, CleanWorkflow.document)]) := by
    rw [check, expected_of_ok h, hmade]
  rw [hcheck]
  refine ⟨hkept.prepared, ?_⟩
  cases document with
  | none => exact hkept.compareAll_none text
  | some old => exact hkept.compareAll_some text

end

/-! ## Runs -/

/-- The files hold the document of the settings that the session has kept. -/
def Consistent (current : Location) (root : Path) (session : Session) : Prop :=
  ∃ document : Option Text, Prepared current root session.tree document ∧
    session.written.map (Pipeline.document (root.resolve current)) = document.map .ok

theorem consistent_step {session : Session} (h : Consistent current root session) (call : Call) :
    Consistent current root (session.step current root call) := by
  obtain ⟨document, hprepared, hwritten⟩ := h
  cases call with
  | generate settings =>
    cases hdocument : Pipeline.document (root.resolve current) settings with
    | error e =>
      have hgenerate : generate current root settings session.tree =
          (session.tree, .error (.model e)) := generate_of_error hdocument
      refine ⟨document, ?_, ?_⟩
      · rw [Session.step, hgenerate]
        exact hprepared
      · rw [Session.step, hgenerate]
        exact hwritten
    | ok text =>
      obtain ⟨after, hgenerate, hafter⟩ := generate_of_ok hprepared hdocument
      refine ⟨some text, ?_, ?_⟩
      · rw [Session.step, hgenerate]
        exact hafter
      · rw [Session.step, hgenerate]
        exact congrArg some hdocument
  | check settings =>
    cases hdocument : Pipeline.document (root.resolve current) settings with
    | error e =>
      refine ⟨document, ?_, hwritten⟩
      rw [Session.step, check_of_error hdocument]
      exact hprepared
    | ok text => exact ⟨document, (check_of_ok hprepared hdocument).1, hwritten⟩

theorem consistent_run (calls : List Call) {session : Session}
    (h : Consistent current root session) :
    Consistent current root (session.run current root calls) := by
  induction calls generalizing session with
  | nil => exact h
  | cons call rest ih => exact ih (consistent_step h call)

theorem check_of_consistent {session : Session} (h : Consistent current root session)
    (settings : Settings) :
    (check current root settings session.tree).2 =
      verdict current root session.written settings := by
  obtain ⟨document, hprepared, hwritten⟩ := h
  cases hdocument : Pipeline.document (root.resolve current) settings with
  | error e =>
    rw [check_of_error hdocument]
    simp only [verdict, expected_of_error hdocument]
  | ok text =>
    rw [(check_of_ok hprepared hdocument).2]
    simp only [verdict, expected_of_ok hdocument]
    cases document with
    | none =>
      rw [Option.map_none, Option.map_eq_none_iff] at hwritten
      simp only [hwritten]
    | some old =>
      obtain ⟨last, hlast, hold⟩ := Option.map_eq_some_iff.mp hwritten
      have hlines : ciLines (root.resolve current) settings = ciLines (root.resolve current) last ↔
          Text.normalLines old = Text.normalLines text := by
        rw [ciLines, ciLines, hdocument, hold]
        simp only [Except.map, Except.ok.injEq]
        exact eq_comm
      simp only [hlast, hlines]

/-- After any calls on an empty project, a check knows the settings that were written last by the
lines of their document, whatever characters stand in it. -/
theorem check_after_calls (h : EmptyProject tree current root) (calls : List Call)
    (settings : Settings) :
    let session := Session.run current root calls { tree := tree }
    (check current root settings session.tree).2 =
        verdict current root session.written settings ∧
      ∀ files, expected (root.resolve current) settings = .ok files →
        (generate current root settings session.tree).2 = .ok (paths root) ∧
        (check current root settings (generate current root settings session.tree).1).2 =
          .ok (paths root) := by
  intro session
  have hconsistent : Consistent current root session :=
    consistent_run calls ⟨none, h.prepared, rfl⟩
  refine ⟨check_of_consistent hconsistent settings, ?_⟩
  intro files hfiles
  obtain ⟨text, hdocument⟩ := document_of_expected hfiles
  obtain ⟨document, hprepared, _⟩ := hconsistent
  obtain ⟨after, hgenerate, hafter⟩ := generate_of_ok hprepared hdocument
  rw [hgenerate]
  refine ⟨rfl, ?_⟩
  rw [(check_of_ok hafter hdocument).2]
  exact if_pos rfl

/-! ## A run -/

/-- Settings without jobs, for a document that shows a value. -/
def showing (key value : String) : Settings :=
  { jobs := some [], env := .ofList [(key, value)] }

def vacant : FileTree := ⟨.ofList [(["project"], .directory)]⟩

def here : Path := ⟨.relative, []⟩

/-- A check before there are files, a document with a carriage return, and one that is refused. -/
def someCalls : List Call :=
  [.check (showing "SHOWN" "x"), .generate (showing "SHOWN" "x\r"),
    .generate (showing "not a key" "")]

theorem vacant_emptyProject : EmptyProject vacant ["project"] here := by
  refine ⟨here, ["project"], [], rfl, by simp, rfl, rfl, ?_⟩
  intro rest hrest
  have hne : ["project"] ++ rest ≠ ["project"] := by simpa using hrest
  exact Table.lookup_put_of_ne hne _ []

/-- The carriage return stands before a newline, so it makes no difference. -/
theorem check_after_someCalls : EmptyProject vacant ["project"] here ∧
    (check ["project"] here (showing "SHOWN" "x")
      (Session.run ["project"] here someCalls { tree := vacant }).tree).2 = .ok (paths here) := by
  have hwritten : (Session.run ["project"] here someCalls { tree := vacant }).written =
      some (showing "SHOWN" "x\r") := by decide +kernel
  have hlines : ciLines (here.resolve ["project"]) (showing "SHOWN" "x") =
      ciLines (here.resolve ["project"]) (showing "SHOWN" "x\r") := by decide +kernel
  have hcheck := (check_after_calls vacant_emptyProject someCalls (showing "SHOWN" "x")).1
  obtain ⟨text, hdocument⟩ : ∃ text,
      Pipeline.document (here.resolve ["project"]) (showing "SHOWN" "x") = .ok text :=
    exists_ok_of_isOk (by decide +kernel)
  rw [hwritten, verdict, expected_of_ok hdocument] at hcheck
  refine ⟨vacant_emptyProject, ?_⟩
  rw [hcheck]
  exact if_pos hlines

end WorkflowFiles
end CiPipeline
