import CiPipeline.Proofs.Composition

/-!
# CiPipeline.Proofs.CheckSites

Which workflows have no document, and which of their faults is reported.

* `Site`, `Workflow.sites` — the places of a workflow that are looked at, in document order.
* `Site.Bad`        — a key that cannot stand before a colon, or a step of an unknown type.
* `Reports`         — a result that fails with the first bad site of a list, and else comes out.
* `Reports.error_append`, `Reports.ok_append`, `reports_mapM` — one result after the other.
* `write_error_iff_first` — a workflow fails with its first bad site, whatever else it holds.
-/

namespace CiPipeline

inductive Site where
  | key (key : String)
  | unknownStep (shown : String)
  deriving DecidableEq

namespace Site

/-- Colons, hash signs and spaces are refused anywhere, indicators in front only. -/
def BadKey (key : Text) : Prop :=
  ':' ∈ key ∨ '#' ∈ key ∨ ' ' ∈ key ∨ ∃ c rest, key = c :: rest ∧ c ∈ Scalar.indicators

def Bad : Site → Prop
  | key name => BadKey name
  | unknownStep _ => True

def error : Site → ModelError
  | key name => .invalidKey name
  | unknownStep shown => .unknownStep shown

theorem keyAllowed_iff (key : Text) : Block.keyAllowed key = true ↔ ¬ BadKey key := by
  cases key with
  | nil => simp [Block.keyAllowed, Scalar.isPlain, BadKey]
  | cons c rest =>
    simp only [Block.keyAllowed, Scalar.isPlain, BadKey, List.cons.injEq, Bool.and_eq_true,
      Bool.not_eq_true', List.contains_eq_mem, decide_eq_false_iff_not, not_or]
    constructor
    · rintro ⟨⟨⟨hcolon, hhash⟩, hfirst⟩, hspace⟩
      refine ⟨hcolon, hhash, hspace, ?_⟩
      rintro ⟨d, more, ⟨rfl, rfl⟩, hd⟩
      exact hfirst hd
    · rintro ⟨hcolon, hhash, hspace, hfirst⟩
      exact ⟨⟨⟨hcolon, hhash⟩, fun hc => hfirst ⟨c, rest, ⟨rfl, rfl⟩, hc⟩⟩, hspace⟩

end Site

/-! ## What is looked at -/

def Block.sites (fields : Fields String) : List Site := fields.entries.map fun field => .key field.1

def Step.Action.sites : Step.Action → List Site
  | .run _ => []
  | .sbt _ => []
  | .use _ _ _ params => Block.sites params
  | .unrecognised shown => [.unknownStep shown]

def Step.sites (step : Step) : List Site := Block.sites step.env ++ step.action.sites

def Job.sites (job : Job) : List Site := Block.sites job.env ++ job.steps.flatMap Step.sites

def Workflow.sites (workflow : Workflow) : List Site :=
  Block.sites workflow.env ++ workflow.jobs.flatMap Job.sites

/-! ## The first fault -/

/-- The first bad site of a list is the fault of the result; without one the result comes out. -/
def Reports {α : Type} (result : Except ModelError α) (sites : List Site) : Prop :=
  match result with
  | .ok _ => ∀ site ∈ sites, ¬ site.Bad
  | .error e => ∃ before site after, sites = before ++ site :: after ∧
      (∀ other ∈ before, ¬ other.Bad) ∧ site.Bad ∧ e = site.error

section

variable {α β : Type} {result : Except ModelError α} {next : Except ModelError β} {a : α}
  {e : ModelError} {sites more : List Site}

/-- A failure comes before everything that would have been looked at after it. -/
theorem Reports.error_append (h : Reports result sites) (he : result = .error e)
    (more : List Site) : Reports (.error e : Except ModelError β) (sites ++ more) := by
  subst he
  obtain ⟨before, site, after, rfl, hbefore, hbad, he⟩ := h
  refine ⟨before, site, after ++ more, ?_, hbefore, hbad, he⟩
  rw [List.append_assoc, List.cons_append]

/-- Sites that were passed leave the fault to those after them. -/
theorem Reports.ok_append (h : Reports result sites) (ha : result = .ok a)
    (hnext : Reports next more) : Reports next (sites ++ more) := by
  subst ha
  have hsites : ∀ site ∈ sites, ¬ site.Bad := h
  cases next with
  | ok b =>
    intro site hsite
    rcases List.mem_append.mp hsite with hsite | hsite
    · exact hsites site hsite
    · exact hnext site hsite
  | error e =>
    obtain ⟨before, site, after, rfl, hbefore, hbad, he⟩ := hnext
    refine ⟨sites ++ before, site, after, ?_, ?_, hbad, he⟩
    · rw [List.append_assoc]
    · intro other hother
      rcases List.mem_append.mp hother with hother | hother
      · exact hsites other hother
      · exact hbefore other hother

theorem Reports.map (h : Reports result sites) (g : α → β) : Reports (result.map g) sites := by
  cases result with
  | ok a => exact h
  | error e => exact h

/-- There is only one first bad site. -/
theorem first_bad_unique {before before' after after' : List Site} {site site' : Site}
    (h : before ++ site :: after = before' ++ site' :: after')
    (hbefore : ∀ other ∈ before, ¬ other.Bad) (hbad : site.Bad)
    (hbefore' : ∀ other ∈ before', ¬ other.Bad) (hbad' : site'.Bad) : site = site' := by
  induction before generalizing before' with
  | nil =>
    cases before' with
    | nil => exact (List.cons.inj h).1
    | cons first rest =>
      have hfirst := hbefore' first List.mem_cons_self
      rw [← (List.cons.inj h).1] at hfirst
      exact absurd hbad hfirst
  | cons first rest ih =>
    rw [List.forall_mem_cons] at hbefore
    cases before' with
    | nil =>
      have hfirst := hbefore.1
      rw [(List.cons.inj h).1] at hfirst
      exact absurd hbad' hfirst
    | cons first' rest' =>
      rw [List.forall_mem_cons] at hbefore'
      exact ih (List.cons.inj h).2 hbefore.2 hbefore'.2

theorem Reports.ok_iff (h : Reports result sites) :
    (∃ a, result = .ok a) ↔ ∀ site ∈ sites, ¬ site.Bad := by
  cases result with
  | ok a => exact ⟨fun _ => h, fun _ => ⟨a, rfl⟩⟩
  | error e =>
    obtain ⟨before, site, after, rfl, -, hbad, -⟩ := h
    constructor
    · rintro ⟨a, ha⟩
      cases ha
    · intro hsites
      exact absurd hbad (hsites site (by simp))

theorem Reports.error_iff (h : Reports result sites) :
    result = .error e ↔ ∃ before site after, sites = before ++ site :: after ∧
      (∀ other ∈ before, ¬ other.Bad) ∧ site.Bad ∧ e = site.error := by
  constructor
  · rintro rfl
    exact h
  · rintro ⟨before, site, after, hsites, hbefore, hbad, rfl⟩
    cases result with
    | ok a =>
      have hnone : ∀ site ∈ sites, ¬ site.Bad := h
      exact absurd hbad (hnone site (by simp [hsites]))
    | error e' =>
      obtain ⟨before', site', after', hsites', hbefore', hbad', rfl⟩ := h
      rw [first_bad_unique (hsites'.symm.trans hsites) hbefore' hbad' hbefore hbad]

theorem reports_nil (a : α) : Reports (.ok a) [] := by
  intro site hsite
  cases hsite

theorem reports_mapM {γ : Type} {f : γ → Except ModelError α} {sitesOf : γ → List Site}
    (h : ∀ x, Reports (f x) (sitesOf x)) (xs : List γ) :
    Reports (xs.mapM f) (xs.flatMap sitesOf) := by
  induction xs with
  | nil => exact reports_nil []
  | cons x xs ih =>
    rw [List.flatMap_cons]
    cases hx : f x with
    | error e =>
      rw [mapM_cons_error hx]
      exact (h x).error_append hx _
    | ok a =>
      rw [mapM_cons_ok hx]
      exact (h x).ok_append hx (ih.map _)

end

/-! ## The writers -/

theorem Block.reports_entry (field : String × String) :
    Reports (Block.entry field) [.key field.1] := by
  rw [Block.entry]
  split
  · rename_i hallowed
    intro site hsite
    rw [List.mem_singleton] at hsite
    subst hsite
    exact (Site.keyAllowed_iff _).mp hallowed
  · rename_i hrefused
    refine ⟨[], .key field.1, [], rfl, by simp, ?_, rfl⟩
    rw [Site.keyAllowed_iff, not_not] at hrefused
    exact hrefused

theorem Block.reports_write (title : Text) (fields : Fields String) :
    Reports (Block.write title fields) (Block.sites fields) := by
  have hentries : Reports (fields.entries.mapM Block.entry) (Block.sites fields) := by
    have hmapM := reports_mapM Block.reports_entry fields.entries
    rwa [← List.map_eq_flatMap] at hmapM
  rw [Block.write]
  split
  · rename_i hempty
    have hnil : Block.sites fields = [] := by
      rw [Block.sites, List.map_eq_nil_iff, ← List.isEmpty_iff]
      exact hempty
    rw [hnil]
    exact reports_nil []
  · cases hmapM : fields.entries.mapM Block.entry with
    | error e =>
      rw [hmapM] at hentries
      exact hentries
    | ok entries =>
      rw [hmapM] at hentries
      exact hentries

theorem Step.Action.reports_write (buildTool : String) (declareShell : Bool)
    (action : Step.Action) : Reports (action.write buildTool declareShell) action.sites := by
  cases action with
  | run commands => exact reports_nil _
  | sbt commands => exact reports_nil _
  | use owner repo ref params =>
    have hparams := Block.reports_write "with" params
    rw [Step.Action.write]
    cases hblock : Block.write "with" params with
    | error e =>
      rw [hblock] at hparams
      exact hparams
    | ok block =>
      rw [hblock] at hparams
      exact hparams
  | unrecognised shown => exact ⟨[], .unknownStep shown, [], rfl, by simp, trivial, rfl⟩

theorem Step.reports_body (buildTool : String) (declareShell : Bool) (step : Step) :
    Reports (step.body buildTool declareShell) step.sites := by
  have henv := Block.reports_write "env" step.env
  have haction := Step.Action.reports_write buildTool declareShell step.action
  rw [Step.body, Step.sites]
  cases hblock : Block.write "env" step.env with
  | error e => exact henv.error_append hblock _
  | ok env =>
    refine henv.ok_append hblock ?_
    cases hwrite : step.action.write buildTool declareShell with
    | error e =>
      rw [hwrite] at haction
      exact haction
    | ok action =>
      rw [hwrite] at haction
      exact haction

theorem Step.reports_write (buildTool : String) (declareShell : Bool) (step : Step) :
    Reports (step.write buildTool declareShell) step.sites :=
  (Step.reports_body buildTool declareShell step).map _

theorem Job.reports_write (buildTool : String) (job : Job) :
    Reports (job.write buildTool) job.sites := by
  have henv := Block.reports_write "env" job.env
  rw [Job.sites]
  cases hblock : Block.write "env" job.env with
  | error e =>
    rw [Job.write_of_env_error buildTool job hblock]
    exact henv.error_append hblock _
  | ok env =>
    rw [Job.write_of_env_ok buildTool job hblock]
    exact henv.ok_append hblock
      ((reports_mapM (Step.reports_write buildTool (Job.windows job.oses)) job.steps).map _)

namespace Workflow

theorem reports_write (workflow : Workflow) : Reports workflow.write workflow.sites := by
  have henv := Block.reports_write "env" workflow.env
  rw [sites]
  cases hblock : Block.write "env" workflow.env with
  | error e =>
    rw [write_of_env_error workflow hblock]
    exact henv.error_append hblock _
  | ok env =>
    rw [write_of_env_ok workflow hblock]
    exact henv.ok_append hblock
      ((reports_mapM (Job.reports_write workflow.buildTool) workflow.jobs).map _)

/-- A workflow has a document if and only if none of its sites is bad. Otherwise the first bad one
is the error, and nothing else about the workflow makes a difference to that. -/
theorem write_error_iff_first (workflow : Workflow) :
    ((∃ document, workflow.write = .ok document) ↔ ∀ site ∈ workflow.sites, ¬ site.Bad) ∧
    (∀ e, workflow.write = .error e ↔
      ∃ before site after, workflow.sites = before ++ site :: after ∧
        (∀ other ∈ before, ¬ other.Bad) ∧ site.Bad ∧ e = site.error) ∧
    (∀ other : Workflow, other.sites = workflow.sites →
      ∀ e, other.write = .error e ↔ workflow.write = .error e) := by
  have hreports := reports_write workflow
  refine ⟨hreports.ok_iff, fun e => hreports.error_iff, ?_⟩
  intro other hsites e
  rw [hreports.error_iff, (reports_write other).error_iff, hsites]

/-- Four faults in its second job, the first of them in the environment of the job. -/
def faulty : Workflow where
  name := "ci"
  branches := []
  activities := []
  env := .ofList [("TOKEN", "a:b")]
  jobs :=
    [{ id := "build", name := "Build", steps := [Step.checkout] },
      { id := "bad id", name := "#", env := .ofList [("-", "\n")],
        steps :=
          [{ action := .unrecognised "Pause()", env := .ofList [("A", ""), ("not a key", "")] },
            { action := .use "o" "r" "v" (.ofList [("#", "")]) }] }]

/-- The same sites under other names and values. -/
def faultyTwin : Workflow :=
  { faulty with name := "#", env := .ofList [("TOKEN", "")], buildTool := "" }

/-- The key `-` of the second job comes first. -/
theorem faulty_first :
    faulty.write = .error (.invalidKey "-") ∧ faultyTwin.sites = faulty.sites ∧
      faultyTwin.write = .error (.invalidKey "-") := by
  have hsites : faultyTwin.sites = faulty.sites := by decide +kernel
  have hsplit : faulty.sites = [.key "TOKEN"] ++ .key "-" ::
      [.key "A", .key "not a key", .unknownStep "Pause()", .key "#"] := by decide +kernel
  have hfirst : ∀ other ∈ [Site.key "TOKEN"], ¬ other.Bad := by
    intro other hother
    rw [List.mem_singleton] at hother
    subst hother
    exact (Site.keyAllowed_iff _).mp (by decide)
  have hbad : (Site.key "-").Bad := .inr (.inr (.inr ⟨'-', [], rfl, by decide⟩))
  have hwrite : faulty.write = .error (.invalidKey "-") :=
    ((write_error_iff_first faulty).2.1 _).mpr ⟨_, _, _, hsplit, hfirst, hbad, rfl⟩
  exact ⟨hwrite, hsites, ((write_error_iff_first faulty).2.2 faultyTwin hsites _).mpr hwrite⟩

end Workflow
end CiPipeline
