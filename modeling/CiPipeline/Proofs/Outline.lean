import CiPipeline.Proofs.JobOutline

/-!
# CiPipeline.Proofs.Outline

The outline of a document: the lines that a reader takes for its keys, its jobs and their fields.

* `Workflow.headings`      — the keys of the document.
* `Workflow.SingleLine`    — what has to be on one line in the document.
* `Workflow.write_outline` — no value can add a line to the outline of its document.
-/

namespace CiPipeline
namespace Workflow

/-! ## Above the jobs -/

/-- The line that the jobs of a document stand under. -/
def jobsLine : Text := "jobs:"

def activityBlock (activities : List PullRequest.Activity) : List Text :=
  if PullRequest.Activity.isStandard activities then []
  else
    let names := activities.map fun activity => activity.name.toList
    [Text.indent 2 ("types: [" ++ Text.joined ", " names ++ "]")]

def envBlock : Text → List Text
  | [] => []
  | c :: rest => [c :: rest, []]

/-- What stands above the jobs, one under the other. -/
def blocks (workflow : Workflow) (env : Text) : List Text :=
  let branches : Text := "    branches: " ++ Scalar.flowList workflow.branches
  let triggers : List Text := [[], "on:", "  pull_request:", branches]
  let push : List Text := ["  push:", branches, []]
  [Text.joined ['\n'] (header.map String.toList), [], "name: " ++ Scalar.write workflow.name]
    ++ triggers ++ activityBlock workflow.activities ++ push ++ envBlock env

theorem activityLine_eq (activities : List PullRequest.Activity) :
    activityLine activities = (activityBlock activities).flatMap ('\n' :: ·) := by
  rw [activityLine, activityBlock]
  split
  · rfl
  · rw [List.flatMap_singleton]
    rfl

theorem head_append (workflow : Workflow) (env u : Text) :
    workflow.head env ++ u = Text.joined ['\n'] (workflow.blocks env ++ [jobsLine, u]) := by
  unfold head
  cases env with
  | nil => simp [blocks, envBlock, Text.joined_cons, activityLine_eq, Text.endedBy, jobsLine]
  | cons c rest =>
    simp [blocks, envBlock, Text.joined_cons, activityLine_eq, Text.endedBy, jobsLine]

/-- The lines above the jobs that start in the first column. -/
def keyHeadings (workflow : Workflow) : List Text :=
  let name : Text := "name: " ++ Scalar.opening workflow.name
  let on : Text := "on:"
  header.map String.toList ++ [name, on] ++ Job.envHeading workflow.env

/-- The lines of a document that start in its first column. -/
def headings (workflow : Workflow) : List Text := workflow.keyHeadings ++ [jobsLine]

/-- What stands in a document without being written as a value has no line break. -/
structure SingleLine (workflow : Workflow) : Prop where
  branches : ∀ branch ∈ workflow.branches, '\n' ∉ branch.toList
  jobs : ∀ job ∈ workflow.jobs, job.SingleLine

variable {limit : Nat}

theorem header_ne_nil : header.map String.toList ≠ [] := by
  rw [← List.length_pos_iff, List.length_map, length_header]
  decide

section Comments

variable {comments : List Text} (h : ∀ line ∈ comments, line.head? = some '#' ∧ '\n' ∉ line)
include h

theorem lines_comments (hne : comments ≠ []) :
    Text.lines (Text.joined ['\n'] comments) = comments := by
  rw [Text.lines_joined hne, List.flatMap_congr fun line hline =>
    Text.lines_eq_singleton (h line hline).2]
  exact List.flatMap_singleton' _

theorem outline_comments (hne : comments ≠ []) :
    Text.outline limit (Text.joined ['\n'] comments) = comments := by
  rw [Text.outline, lines_comments h hne, List.filter_eq_self]
  intro line hline
  obtain ⟨hstart, _⟩ := h line hline
  cases line with
  | nil => cases hstart
  | cons c rest =>
    cases hstart
    exact Text.solidHeading_cons (by decide) rest

theorem tidy_comments (hne : comments ≠ []) : Text.Tidy (Text.joined ['\n'] comments) := by
  intro line hline hb
  rw [lines_comments h hne] at hline
  obtain ⟨hstart, _⟩ := h line hline
  cases line with
  | nil => cases hstart
  | cons c rest =>
    cases hstart
    cases hb

end Comments

theorem outline_activityBlock (hlimit : limit < 2) (activities : List PullRequest.Activity) :
    (activityBlock activities).flatMap (Text.outline limit) = [] := by
  rw [activityBlock]
  split
  · rfl
  · rw [List.flatMap_singleton]
    exact Text.outline_indent_of_lt (Nat.lt_trans hlimit (by decide)) _

theorem outline_envBlock (hlimit : limit < 2) {fields : Fields String} {env : Text}
    (h : Block.write "env" fields = .ok env) :
    (envBlock env).flatMap (Text.outline limit) = Job.envHeading fields := by
  have hjob := Job.outline_envBlock hlimit h
  cases env with
  | nil => exact hjob
  | cons c rest => simpa [envBlock, Job.envBlock] using hjob

/-- Above the jobs, only the keys of the document stand in its first columns. -/
theorem outline_blocks (hlimit : limit < 2) {workflow : Workflow} (single : workflow.SingleLine)
    {env : Text} (henv : Block.write "env" workflow.env = .ok env) :
    (workflow.blocks env).flatMap (Text.outline limit) = workflow.keyHeadings := by
  have hname : Text.outline limit ("name: " ++ Scalar.write workflow.name) =
      [("name: " ++ Scalar.opening workflow.name : Text)] :=
    Scalar.outline_append_write hlimit (by decide) rfl (by decide) _
  have hon : Text.outline limit "on:" = [("on:" : Text)] :=
    Text.outline_of_flat (by decide) rfl (by decide)
  have hrequest : Text.outline limit "  pull_request:" = [] :=
    Text.outline_of_two_spaces hlimit (by decide) rfl
  have hpush : Text.outline limit "  push:" = [] :=
    Text.outline_of_two_spaces hlimit (by decide) rfl
  have hbranches :
      Text.outline limit ("    branches: " ++ Scalar.flowList workflow.branches) = [] :=
    Job.outline_matrix hlimit (by decide) rfl single.branches
  rw [blocks, keyHeadings]
  have hcomments : Text.outline limit (Text.joined ['\n'] (header.map String.toList)) =
      header.map String.toList := outline_comments header_comments header_ne_nil
  simp only [List.flatMap_cons, List.flatMap_append, hcomments, hname, hon, hrequest, hpush,
    hbranches, outline_activityBlock hlimit, outline_envBlock hlimit henv, Text.outline_nil,
    List.nil_append, List.cons_append, List.append_assoc]

theorem tidy_env {fields : Fields String} {env : Text} (h : Block.write "env" fields = .ok env) :
    Text.Tidy env := by
  rcases Block.write_eq_ok h with ⟨_, rfl⟩ | ⟨_, inner, rfl⟩
  · exact Text.tidy_nil
  · have htitle : Text.Tidy "env:" := Text.tidy_of_flat (by decide) (by decide)
    intro line hline
    rw [show ("env" ++ ":\n" ++ Text.indent 1 inner : Text) = "env:" ++ '\n' :: Text.indent 1 inner
      from rfl, Text.lines_append_newline, List.mem_append] at hline
    rcases hline with hline | hline
    · exact htitle line hline
    · exact Text.tidy_indent 1 inner line hline

/-- No line above the jobs is made of spaces only. -/
theorem tidy_blocks {workflow : Workflow} (single : workflow.SingleLine) {env : Text}
    (henv : Block.write "env" workflow.env = .ok env) :
    ∀ block ∈ workflow.blocks env, Text.Tidy block := by
  have hheader : Text.Tidy (Text.joined ['\n'] (header.map String.toList)) :=
    tidy_comments header_comments header_ne_nil
  have hname : Text.Tidy ("name: " ++ Scalar.write workflow.name) :=
    Scalar.tidy_append_write (by decide) (by decide) _
  have hon : Text.Tidy "on:" := Text.tidy_of_flat (by decide) (by decide)
  have hrequest : Text.Tidy "  pull_request:" :=
    Text.tidy_of_flat (by decide) (by decide)
  have hpush : Text.Tidy "  push:" :=
    Text.tidy_of_flat (by decide) (by decide)
  have hbranches : Text.Tidy ("    branches: " ++ Scalar.flowList workflow.branches) := by
    have hflat : '\n' ∉ ("    branches: " ++ Scalar.flowList workflow.branches : Text) := by
      rw [List.mem_append, not_or]
      exact ⟨by decide, Scalar.newline_notMem_flowList single.branches⟩
    have hlead : Text.blank "    branches: " = false := by decide
    exact Text.tidy_of_flat hflat (by rw [Text.blank_append, hlead, Bool.false_and])
  have hactivities : ∀ block ∈ activityBlock workflow.activities, Text.Tidy block := by
    intro block hblock
    rw [activityBlock] at hblock
    split at hblock
    · cases hblock
    · rw [List.mem_singleton] at hblock
      rw [hblock]
      exact Text.tidy_indent 2 _
  have hkeys : ∀ block ∈ envBlock env, Text.Tidy block := by
    intro block hblock
    cases env with
    | nil => cases hblock
    | cons c rest =>
      rw [envBlock, List.mem_cons, List.mem_singleton] at hblock
      rcases hblock with rfl | rfl
      · exact tidy_env henv
      · exact Text.tidy_nil
  intro block hblock
  simp only [blocks, List.mem_append, List.mem_cons, List.not_mem_nil, or_false] at hblock
  rcases hblock with (((((rfl | rfl | rfl) | (rfl | rfl | rfl | rfl)) | hblock) |
    (rfl | rfl | rfl)) | hblock)
  · exact hheader
  · exact Text.tidy_nil
  · exact hname
  · exact Text.tidy_nil
  · exact hon
  · exact hrequest
  · exact hbranches
  · exact hactivities _ hblock
  · exact hpush
  · exact hbranches
  · exact Text.tidy_nil
  · exact hkeys _ hblock

/-! ## The whole document -/

theorem outline_jobs (hlimit : limit < 2) {buildTool : String} {jobs : List Job}
    {texts : List Text} (single : ∀ job ∈ jobs, job.SingleLine)
    (h : List.Forall₂ (fun job text => Job.write buildTool job = .ok text) jobs texts) :
    Text.outline (2 + (2 + limit)) (Text.indent 1 (Text.joined ['\n', '\n'] texts)) =
      jobs.flatMap Job.headings := by
  rw [Text.outline_indent_one, Text.outline_separated, List.map_flatMap]
  induction h with
  | nil => rfl
  | @cons job text jobs texts hjob _ ih =>
    rw [List.flatMap_cons, List.flatMap_cons,
      ih fun other hother => single other (List.mem_cons_of_mem _ hother),
      Job.outline_write hlimit (single job List.mem_cons_self) hjob, Job.headings, List.map_cons,
      List.map_map]
    rfl

theorem exists_blocks_of_write {workflow : Workflow} {document : Text}
    (h : workflow.write = .ok document) :
    ∃ env texts, Block.write "env" workflow.env = .ok env ∧
      List.Forall₂ (fun job text => job.write workflow.buildTool = .ok text) workflow.jobs texts ∧
      document = Text.joined ['\n'] (workflow.blocks env ++
        [jobsLine, Text.indent 1 (Text.joined ['\n', '\n'] texts)]) := by
  cases henv : Block.write "env" workflow.env with
  | error e => rw [write_of_env_error workflow henv] at h; cases h
  | ok env =>
    rw [write_of_env_ok workflow henv] at h
    obtain ⟨texts, hjobs, rfl⟩ := exists_of_map_ok h
    exact ⟨env, texts, rfl, mapM_eq_ok_iff.mp hjobs, head_append workflow env _⟩

theorem jobsLine_notMem_keyHeadings (workflow : Workflow) : jobsLine ∉ workflow.keyHeadings := by
  have hheader : jobsLine ∉ header.map String.toList := by
    intro hmem
    cases (header_comments jobsLine hmem).1
  have henv : jobsLine ∉ Job.envHeading workflow.env := by
    rw [Job.envHeading]
    split
    · exact List.not_mem_nil
    · decide
  rw [keyHeadings, List.mem_append, List.mem_append, not_or, not_or]
  refine ⟨⟨hheader, ?_⟩, henv⟩
  simp [jobsLine]

/-- No line above the jobs is the one that announces them. -/
theorem jobsLine_notMem_blocks {workflow : Workflow} (single : workflow.SingleLine) {env : Text}
    (henv : Block.write "env" workflow.env = .ok env) :
    jobsLine ∉ (workflow.blocks env).flatMap Text.lines := by
  intro hmem
  have houtline : ((workflow.blocks env).flatMap Text.lines).filter (Text.solidHeading 0) =
      workflow.keyHeadings := by
    rw [List.filter_flatMap]
    exact outline_blocks (by decide) single henv
  have hkey : jobsLine ∈ workflow.keyHeadings := by
    rw [← houtline]
    exact List.mem_filter.mpr ⟨hmem, by decide⟩
  exact jobsLine_notMem_keyHeadings workflow hkey

/-- The lines of a document that start in its first columns are the keys, the jobs and the fields
of the jobs that its workflow has; a line of any value starts further to the right. -/
theorem write_outline {workflow : Workflow} (single : workflow.SingleLine) {document : Text}
    (h : workflow.write = .ok document) :
    (∀ line ∈ Text.lines document, Text.blank line = true → line = []) ∧
    (Text.lines document).filter (Text.heading 0) = workflow.headings ∧
    ∃ before after, Text.lines document = before ++ jobsLine :: after ∧ jobsLine ∉ before ∧
      after.filter (Text.heading 4) = workflow.jobs.flatMap Job.headings ∧
      ∀ line ∈ after, line ≠ [] → Text.depth line ≤ 4 ∨ 6 ≤ Text.depth line := by
  obtain ⟨env, texts, henv, hjobs, hdocument⟩ := exists_blocks_of_write h
  have hne : workflow.blocks env ++
      [jobsLine, Text.indent 1 (Text.joined ['\n', '\n'] texts)] ≠ [] := by simp
  have hjobsLine : Text.Tidy jobsLine :=
    Text.tidy_of_flat (by decide) (by decide)
  have hbody := Text.tidy_indent 1 (Text.joined ['\n', '\n'] texts)
  have htidy : Text.Tidy document := by
    rw [hdocument]
    apply Text.tidy_joined hne
    intro block hblock
    rw [List.mem_append, List.mem_cons, List.mem_singleton] at hblock
    rcases hblock with hblock | rfl | rfl
    · exact tidy_blocks single henv block hblock
    · exact hjobsLine
    · exact hbody
  have hlines : Text.lines document = (workflow.blocks env).flatMap Text.lines ++
      jobsLine :: Text.lines (Text.indent 1 (Text.joined ['\n', '\n'] texts)) := by
    have hlast : Text.lines jobsLine = [jobsLine] := Text.lines_eq_singleton (by decide)
    rw [hdocument, Text.lines_joined hne, List.flatMap_append]
    simp [hlast]
  have houtline : Text.outline 0 document = workflow.headings := by
    have hlast : Text.outline 0 jobsLine = [jobsLine] :=
      Text.outline_of_flat (by decide) rfl (by decide)
    rw [hdocument, Text.outline_joined hne, List.flatMap_append, headings,
      outline_blocks (by decide) single henv]
    simp [hlast, Text.outline_indent_of_lt (show 0 < Text.columns 1 by decide)]
  have hfour := outline_jobs (show 0 < 2 by decide) single.jobs hjobs
  have hfive := outline_jobs (show 1 < 2 by decide) single.jobs hjobs
  rw [← Text.filter_heading_of_tidy hbody] at hfour hfive
  refine ⟨htidy, ?_, _, _, hlines, jobsLine_notMem_blocks single henv, hfour, ?_⟩
  · rw [Text.filter_heading_of_tidy htidy, houtline]
  · -- a line that starts in the sixth column would be one of the headings as well
    intro line hline hnonempty
    rcases Nat.lt_or_ge 5 (Text.depth line) with hdepth | hdepth
    · exact .inr hdepth
    · have hmem : line ∈ workflow.jobs.flatMap Job.headings := by
        rw [← hfive]
        exact List.mem_filter.mpr ⟨hline, by simp [Text.heading, hnonempty, hdepth]⟩
      rw [← hfour, List.mem_filter] at hmem
      simp only [Text.heading, Bool.and_eq_true, decide_eq_true_eq] at hmem
      exact .inl hmem.2.2

theorem lookalike_singleLine : lookalike.SingleLine where
  branches := by decide
  jobs := by
    intro job hjob
    rw [show lookalike.jobs = [lookalikeJob] from rfl, List.mem_singleton] at hjob
    subst hjob
    exact ⟨by decide, by decide, by decide, by decide, by decide, by decide⟩

theorem lookalike_outline : lookalike.SingleLine ∧
    ∃ document, lookalike.write = .ok document ∧
      (Text.lines document).filter (Text.heading 0) = lookalike.headings := by
  obtain ⟨document, h⟩ : ∃ document, lookalike.write = .ok document :=
    exists_ok_of_isOk (by decide +kernel)
  exact ⟨lookalike_singleLine, document, h, (write_outline lookalike_singleLine h).2.1⟩

end Workflow
end CiPipeline
