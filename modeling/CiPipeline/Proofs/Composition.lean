import CiPipeline.Proofs.Indentation
import CiPipeline.Proofs.Results
import CiPipeline.Workflow

/-!
# CiPipeline.Proofs.Composition

A document is put together from the documents of its parts.

* `Job.part`                   — what a job adds to a document.
* `Job.part_eq`                — the part of a job is its text, one level in.
* `Workflow.write_eq_parts`    — a document is the document without jobs, and the parts after it.
* `InOrder`                    — texts that stand in another one, one after the other.
* `Workflow.write_compositional` — all of it, and that a document is the start of every longer one.
-/

namespace CiPipeline

/-- The texts stand in `t` without overlap, in the order of the list. -/
def InOrder : List Text → Text → Prop
  | [], _ => True
  | part :: parts, t => ∃ before after, t = before ++ part ++ after ∧ InOrder parts after

/-- A result that goes on where `t` ends, or a failure with a cause in what was added. -/
def Prolongs (t : Text) (cause : ModelError → Prop) : Except ModelError Text → Prop
  | .ok longer => t <+: longer
  | .error e => cause e

namespace InOrder

theorem append_left {parts : List Text} {t : Text} (h : InOrder parts t) (s : Text) :
    InOrder parts (s ++ t) := by
  cases parts with
  | nil => trivial
  | cons part parts =>
    obtain ⟨before, after, rfl, hafter⟩ := h
    exact ⟨s ++ before, after, by simp, hafter⟩

theorem append {parts more : List Text} {t u : Text} (ht : InOrder parts t)
    (hu : InOrder more u) : InOrder (parts ++ more) (t ++ u) := by
  induction parts generalizing t with
  | nil => exact append_left hu t
  | cons part parts ih =>
    obtain ⟨before, after, rfl, hafter⟩ := ht
    exact ⟨before, after ++ u, by simp, ih hafter⟩

/-- A list of lists of texts, each in its own block, is in order in the blocks put together. -/
theorem joined (sep : Text) {parts : List (List Text)} {blocks : List Text}
    (h : List.Forall₂ InOrder parts blocks) : InOrder parts.flatten (Text.joined sep blocks) := by
  induction h with
  | nil => trivial
  | @cons part block parts blocks hpart hrest ih =>
    rw [List.flatten_cons]
    cases hrest with
    | nil =>
      rw [Text.joined_singleton]
      simpa using hpart
    | cons _ _ =>
      rw [Text.joined_cons_cons, List.append_assoc]
      exact hpart.append (ih.append_left sep)

theorem joined_self (sep : Text) (texts : List Text) : InOrder texts (Text.joined sep texts) := by
  induction texts with
  | nil => trivial
  | cons t rest ih =>
    cases rest with
    | nil => exact ⟨[], [], by simp [Text.joined_singleton], trivial⟩
    | cons u more =>
      exact ⟨[], sep ++ Text.joined sep (u :: more), by simp [Text.joined_cons_cons],
        ih.append_left sep⟩

end InOrder

namespace Text

theorem joined_prefix_append (sep : Text) (texts more : List Text) :
    joined sep texts <+: joined sep (texts ++ more) := by
  induction texts with
  | nil => exact List.nil_prefix
  | cons t rest ih =>
    cases rest with
    | nil =>
      cases more with
      | nil => exact List.prefix_rfl
      | cons u others =>
        rw [joined_singleton, List.singleton_append, joined_cons_cons, List.append_assoc]
        exact List.prefix_append _ _
    | cons u others =>
      rw [List.cons_append, List.cons_append, joined_cons_cons, joined_cons_cons,
        ← List.cons_append]
      exact (List.prefix_append_right_inj _).mpr ih

/-- Only the last of the texts grows. -/
theorem joined_prefix_of_last (sep : Text) (texts : List Text) {t u : Text} (h : t <+: u) :
    joined sep (texts ++ [t]) <+: joined sep (texts ++ [u]) := by
  induction texts with
  | nil => simpa [joined_singleton] using h
  | cons s rest ih =>
    cases rest with
    | nil =>
      rw [List.singleton_append, List.singleton_append, joined_cons_cons, joined_cons_cons]
      exact (List.prefix_append_right_inj _).mpr (by simpa [joined_singleton] using h)
    | cons r others =>
      rw [List.cons_append, List.cons_append, List.cons_append, List.cons_append,
        joined_cons_cons, joined_cons_cons]
      exact (List.prefix_append_right_inj _).mpr ih

/-- A text that ends a line is indented apart from what follows. -/
theorem indent_line_append (level : Int) (t u : Text) :
    indent level (t ++ ['\n'] ++ u) = indent level (t ++ ['\n']) ++ indent level u := by
  have h (v : Text) : t ++ ['\n'] ++ v = t ++ '\n' :: v := by simp
  rw [h, indent_append_newline, show t ++ ['\n'] = t ++ '\n' :: [] from rfl,
    indent_append_newline, indent_nil]
  simp

end Text

/-! ## Jobs -/

namespace Job

/-- The start of a job, down to the line that announces its steps, followed by the steps. -/
def part (buildTool : String) (job : Job) : Except ModelError Text :=
  match Job.write buildTool { job with steps := [] } with
  | .error e => .error e
  | .ok front =>
    (job.steps.mapM (Step.write buildTool (windows job.oses))).map fun steps =>
      Text.indent 1 front ++ Text.joined "\n\n" (steps.map (Text.indent 3))

theorem head_ends_line (job : Job) (env : Text) : ∃ t, job.head env = t ++ ['\n'] := by
  obtain ⟨t, h⟩ : ∃ t : Text, job.head env = t ++ "steps:\n" := ⟨_, rfl⟩
  refine ⟨t ++ "steps:", ?_⟩
  rw [h, List.append_assoc]
  rfl

/-- The steps of a job stay one block each when the job is moved into a document. -/
theorem indent_text (job : Job) (env : Text) (steps : List Text) :
    Text.indent 1 (job.id ++ ":\n"
        ++ Text.indent 1 (job.head env ++ Text.indent 1 (Text.joined "\n\n" steps))) =
      Text.indent 1 (job.id ++ ":\n" ++ Text.indent 1 (job.head env))
        ++ Text.joined "\n\n" (steps.map (Text.indent 3)) := by
  obtain ⟨t, ht⟩ := head_ends_line job env
  have hfront : Text.indent 1 (job.head env) = Text.indent 1 t ++ ['\n'] := by
    rw [ht, show t ++ ['\n'] = t ++ '\n' :: [] from rfl, Text.indent_append_newline,
      Text.indent_nil]
  have hsteps : Text.indent 1 (Text.indent 2 (Text.joined "\n\n" steps)) =
      Text.joined "\n\n" (steps.map (Text.indent 3)) := by
    rw [Text.indent_indent]
    exact Text.indent_joined 3 steps
  have hbody : Text.indent 1 (job.head env ++ Text.indent 1 (Text.joined "\n\n" steps)) =
      Text.indent 1 (job.head env) ++ Text.indent 2 (Text.joined "\n\n" steps) := by
    rw [ht, Text.indent_line_append, Text.indent_indent]
    rfl
  rw [hbody, hfront, ← hsteps, ← List.append_assoc, ← List.append_assoc,
    Text.indent_line_append]

theorem write_of_env_error (buildTool : String) (job : Job) {e : ModelError}
    (h : Block.write "env" job.env = .error e) : job.write buildTool = .error e := by
  rw [write, h]

theorem write_of_env_ok (buildTool : String) (job : Job) {env : Text}
    (h : Block.write "env" job.env = .ok env) :
    job.write buildTool =
      (job.steps.mapM (Step.write buildTool (windows job.oses))).map fun steps =>
        job.id ++ ":\n"
          ++ Text.indent 1 (job.head env ++ Text.indent 1 (Text.joined "\n\n" steps)) := by
  rw [write, h, writeSteps]
  cases job.steps.mapM (Step.write buildTool (windows job.oses)) <;> rfl

theorem part_eq (buildTool : String) (job : Job) :
    job.part buildTool = (job.write buildTool).map (Text.indent 1) := by
  cases henv : Block.write "env" job.env with
  | error e =>
    have hfront : Job.write buildTool { job with steps := [] } = .error e :=
      write_of_env_error buildTool { job with steps := [] } henv
    rw [part, hfront, write_of_env_error buildTool job henv]
    rfl
  | ok env =>
    have hfront : Job.write buildTool { job with steps := [] } =
        .ok (job.id ++ ":\n" ++ Text.indent 1 (job.head env)) := by
      rw [write_of_env_ok buildTool { job with steps := [] } henv, List.mapM_nil]
      show Except.ok (job.id ++ ":\n" ++ Text.indent 1 (job.head env ++ Text.indent 1 [])) = _
      rw [Text.indent_nil, List.append_nil]
    rw [part, hfront, write_of_env_ok buildTool job henv]
    cases job.steps.mapM (Step.write buildTool (windows job.oses)) with
    | error e => rfl
    | ok steps => exact congrArg Except.ok (indent_text job env steps).symm

/-- The steps that a job was written with, each one in its place. -/
theorem steps_inOrder_of_part {buildTool : String} {job : Job} {part : Text}
    (h : job.part buildTool = .ok part) :
    ∃ steps, List.Forall₂ (fun step text => step.write buildTool (windows job.oses) = .ok text)
        job.steps steps ∧ InOrder (steps.map (Text.indent 3)) part := by
  rw [Job.part] at h
  split at h
  · cases h
  · rename_i front _
    obtain ⟨steps, hsteps, rfl⟩ := exists_of_map_ok h
    exact ⟨steps, mapM_eq_ok_iff.mp hsteps, (InOrder.joined_self _ _).append_left _⟩

/-- More steps make the part of a job longer, or one of them cannot be written. -/
theorem part_append_steps {buildTool : String} {job : Job} {part : Text}
    (h : job.part buildTool = .ok part) (more : List Step) :
    Prolongs part (fun e => ∃ step ∈ more, step.write buildTool (windows job.oses) = .error e)
      (Job.part buildTool { job with steps := job.steps ++ more }) := by
  rw [Job.part] at h ⊢
  split at h
  · cases h
  · rename_i front hfront
    rw [hfront]
    obtain ⟨steps, hsteps, rfl⟩ := exists_of_map_ok h
    simp only [mapM_append_of_ok hsteps]
    cases hmore : more.mapM (Step.write buildTool (windows job.oses)) with
    | error e => exact exists_mem_of_mapM_error hmore
    | ok others =>
      show _ <+: Text.indent 1 front ++ Text.joined "\n\n" ((steps ++ others).map (Text.indent 3))
      rw [List.map_append]
      exact (List.prefix_append_right_inj _).mpr (Text.joined_prefix_append _ _ _)

end Job

/-! ## Workflows -/

namespace Workflow

theorem write_of_env_error (workflow : Workflow) {e : ModelError}
    (h : Block.write "env" workflow.env = .error e) : workflow.write = .error e := by
  rw [write, h]

theorem write_of_env_ok (workflow : Workflow) {env : Text}
    (h : Block.write "env" workflow.env = .ok env) :
    workflow.write =
      (workflow.jobs.mapM (Job.write workflow.buildTool)).map fun jobs =>
        workflow.head env ++ Text.indent 1 (Text.joined "\n\n" jobs) := by
  rw [write, h, writeJobs]
  cases workflow.jobs.mapM (Job.write workflow.buildTool) <;> rfl

theorem mapM_part (buildTool : String) (jobs : List Job) :
    jobs.mapM (Job.part buildTool) =
      (jobs.mapM (Job.write buildTool)).map (List.map (Text.indent 1)) := by
  rw [← mapM_map]
  congr 1
  funext job
  exact Job.part_eq buildTool job

/-- Failures included: the first part that cannot be written is the one reported. -/
theorem write_eq_parts (workflow : Workflow) :
    workflow.write =
      match ({ workflow with jobs := [] } : Workflow).write with
      | .error e => .error e
      | .ok front =>
        (workflow.jobs.mapM (Job.part workflow.buildTool)).map fun parts =>
          front ++ Text.joined "\n\n" parts := by
  cases henv : Block.write "env" workflow.env with
  | error e =>
    have hfront : ({ workflow with jobs := [] } : Workflow).write = .error e :=
      write_of_env_error { workflow with jobs := [] } henv
    rw [hfront, write_of_env_error workflow henv]
  | ok env =>
    have hfront : ({ workflow with jobs := [] } : Workflow).write = .ok (workflow.head env) := by
      rw [write_of_env_ok { workflow with jobs := [] } henv, List.mapM_nil]
      show Except.ok (workflow.head env ++ Text.indent 1 []) = _
      rw [Text.indent_nil, List.append_nil]
    rw [hfront, write_of_env_ok workflow henv]
    simp only [mapM_part]
    cases workflow.jobs.mapM (Job.write workflow.buildTool) with
    | error e => simp only [Except.map]
    | ok jobs =>
      have hjoined : Text.indent 1 (Text.joined "\n\n" jobs) =
          Text.joined "\n\n" (jobs.map (Text.indent 1)) := Text.indent_joined 1 jobs
      simp only [Except.map, hjoined]

theorem exists_parts_of_write {workflow : Workflow} {document : Text}
    (h : workflow.write = .ok document) :
    ∃ front parts, ({ workflow with jobs := [] } : Workflow).write = .ok front ∧
      workflow.jobs.mapM (Job.part workflow.buildTool) = .ok parts ∧
      document = front ++ Text.joined "\n\n" parts := by
  rw [write_eq_parts] at h
  cases hfront : ({ workflow with jobs := [] } : Workflow).write with
  | error e => simp only [hfront, reduceCtorEq] at h
  | ok front =>
    simp only [hfront] at h
    obtain ⟨parts, hparts, hdocument⟩ := exists_of_map_ok h
    exact ⟨front, parts, rfl, hparts, hdocument⟩

theorem steps_inOrder_of_write {workflow : Workflow} {document : Text}
    (h : workflow.write = .ok document) :
    ∃ steps, List.Forall₂ (fun job texts =>
        List.Forall₂ (fun step text =>
          step.write workflow.buildTool (Job.windows job.oses) = .ok text) job.steps texts)
        workflow.jobs steps ∧
      InOrder (steps.flatten.map (Text.indent 3)) document := by
  obtain ⟨front, parts, _, hparts, rfl⟩ := exists_parts_of_write h
  have heach := (mapM_eq_ok_iff.mp hparts).imp fun _ _ hpart => Job.steps_inOrder_of_part hpart
  obtain ⟨steps, hsteps, horder⟩ := exists_forall₂_between heach
  have hblocks : List.Forall₂ InOrder (steps.map (List.map (Text.indent 3))) parts :=
    List.forall₂_map_left_iff.mpr horder
  refine ⟨steps, hsteps, ?_⟩
  rw [List.map_flatten]
  exact (InOrder.joined _ hblocks).append_left front

/-- The document of other jobs under the same name, triggers and environment. -/
theorem write_of_jobs {workflow : Workflow} {front : Text}
    (h : ({ workflow with jobs := [] } : Workflow).write = .ok front) (jobs : List Job) :
    ({ workflow with jobs := jobs } : Workflow).write =
      (jobs.mapM (Job.part workflow.buildTool)).map fun parts =>
        front ++ Text.joined "\n\n" parts := by
  rw [write_eq_parts { workflow with jobs := jobs }, h]

theorem write_append_jobs {workflow : Workflow} {document : Text}
    (h : workflow.write = .ok document) (more : List Job) :
    Prolongs document (fun e => ∃ job ∈ more, job.write workflow.buildTool = .error e)
      ({ workflow with jobs := workflow.jobs ++ more } : Workflow).write := by
  obtain ⟨front, parts, hfront, hparts, rfl⟩ := exists_parts_of_write h
  rw [write_of_jobs hfront, mapM_append_of_ok hparts]
  cases hmore : more.mapM (Job.part workflow.buildTool) with
  | ok others =>
    show _ <+: front ++ Text.joined "\n\n" (parts ++ others)
    exact (List.prefix_append_right_inj _).mpr (Text.joined_prefix_append _ _ _)
  | error e =>
    rw [mapM_part] at hmore
    cases hwrite : more.mapM (Job.write workflow.buildTool) with
    | ok texts => simp only [hwrite, Except.map, reduceCtorEq] at hmore
    | error e' =>
      simp only [hwrite, Except.map, Except.error.injEq] at hmore
      subst hmore
      exact exists_mem_of_mapM_error hwrite

theorem write_append_steps {workflow : Workflow} {document : Text}
    (h : workflow.write = .ok document) {jobs : List Job} {last : Job}
    (hlast : workflow.jobs = jobs ++ [last]) (more : List Step) :
    Prolongs document
      (fun e => ∃ step ∈ more, step.write workflow.buildTool (Job.windows last.oses) = .error e)
      ({ workflow with
        jobs := jobs ++ [{ last with steps := last.steps ++ more }] } : Workflow).write := by
  obtain ⟨front, parts, hfront, hparts, rfl⟩ := exists_parts_of_write h
  rw [hlast] at hparts
  cases hjobs : jobs.mapM (Job.part workflow.buildTool) with
  | error e =>
    rw [List.mapM_append, hjobs] at hparts
    cases hparts
  | ok before =>
    rw [mapM_append_of_ok hjobs] at hparts
    cases hpart : last.part workflow.buildTool with
    | error e => rw [mapM_cons_error hpart] at hparts; cases hparts
    | ok part =>
      rw [mapM_cons_ok hpart, List.mapM_nil] at hparts
      simp only [pure, Except.pure, Except.map, Except.ok.injEq] at hparts
      have hlonger := Job.part_append_steps hpart more
      rw [write_of_jobs hfront, mapM_append_of_ok hjobs]
      cases hnew : Job.part workflow.buildTool { last with steps := last.steps ++ more } with
      | error e =>
        rw [hnew] at hlonger
        rw [mapM_cons_error hnew]
        exact hlonger
      | ok longer =>
        rw [hnew] at hlonger
        rw [mapM_cons_ok hnew, List.mapM_nil, ← hparts]
        show _ <+: front ++ Text.joined "\n\n" (before ++ [longer])
        exact (List.prefix_append_right_inj _).mpr (Text.joined_prefix_of_last _ _ hlonger)

/-- A document is its start without jobs and, after it, each job without steps followed by its
steps, which only move to the right. Its steps are found in it in order, and adding jobs or adding
steps to the last job only adds text at the end. -/
theorem write_compositional (workflow : Workflow) :
    (workflow.write =
      match ({ workflow with jobs := [] } : Workflow).write with
      | .error e => .error e
      | .ok front =>
        (workflow.jobs.mapM (Job.part workflow.buildTool)).map fun parts =>
          front ++ Text.joined "\n\n" parts) ∧
    ∀ document, workflow.write = .ok document →
      (∃ steps, List.Forall₂ (fun job texts =>
          List.Forall₂ (fun step text =>
            step.write workflow.buildTool (Job.windows job.oses) = .ok text) job.steps texts)
          workflow.jobs steps ∧
        InOrder (steps.flatten.map (Text.indent 3)) document) ∧
      (∀ more : List Job,
        Prolongs document (fun e => ∃ job ∈ more, job.write workflow.buildTool = .error e)
          ({ workflow with jobs := workflow.jobs ++ more } : Workflow).write) ∧
      (∀ (jobs : List Job) (last : Job) (more : List Step), workflow.jobs = jobs ++ [last] →
        Prolongs document
          (fun e => ∃ step ∈ more,
            step.write workflow.buildTool (Job.windows last.oses) = .error e)
          ({ workflow with
            jobs := jobs ++ [{ last with steps := last.steps ++ more }] } : Workflow).write) :=
  ⟨write_eq_parts workflow, fun _ h =>
    ⟨steps_inOrder_of_write h, write_append_jobs h, fun _ _ more hlast =>
      write_append_steps h hlast more⟩⟩

/-- A job whose values look like parts of the document around it. -/
def lookalikeJob : Job where
  id := "build"
  name := "\n  other:\n"
  steps := [{ action := .run ["make", "   ", "steps:", ""] }, Step.checkout]
  cond := some "a\n\n    steps:"
  needs := ["lint"]

/-- A workflow whose values look like parts of its document. -/
def lookalike : Workflow where
  name := "ci\njobs:\n  other:"
  branches := ["main"]
  activities := []
  env := .ofList [("TOKEN", "on:\n\njobs:")]
  jobs := [lookalikeJob]

theorem lookalike_document_prefix :
    lookalike.jobs = [] ++ [lookalikeJob] ∧
    ∃ document longer, lookalike.write = .ok document ∧
      ({ lookalike with
        jobs := [] ++ [{ lookalikeJob with
          steps := lookalikeJob.steps ++ [Step.setupScala] }] } : Workflow).write = .ok longer ∧
      document <+: longer := by
  obtain ⟨document, h⟩ : ∃ document, lookalike.write = .ok document :=
    exists_ok_of_isOk (by decide +kernel)
  obtain ⟨longer, hlonger⟩ : ∃ longer, ({ lookalike with
      jobs := [] ++ [{ lookalikeJob with
        steps := lookalikeJob.steps ++ [Step.setupScala] }] } : Workflow).write = .ok longer :=
    exists_ok_of_isOk (by decide +kernel)
  have hlast : lookalike.jobs = [] ++ [lookalikeJob] := rfl
  have hmore := ((write_compositional lookalike).2 document h).2.2 [] lookalikeJob
    [Step.setupScala] hlast
  rw [hlonger] at hmore
  exact ⟨hlast, document, longer, h, hlonger, hmore⟩

end Workflow
end CiPipeline
