import CiPipeline.Pipeline
import CiPipeline.Proofs.Results

/-!
# CiPipeline.Proofs.Overrides

Settings that give a part of the pipeline themselves, just as the pipeline would generate it.

* `Settings.Generated`    — settings that leave all four parts to the pipeline.
* `Overrides`             — which of the parts are given all the same.
* `Overrides.apply`       — the settings with these parts written out.
* `buildJob_apply`, `publishJob_apply` — the jobs are put together from the same steps.
* `workflow_overridden`   — the workflow and its document are those of the settings before.
-/

namespace CiPipeline

structure Settings.Generated (settings : Settings) : Prop where
  cacheSteps : settings.cacheSteps = none
  uploadSteps : settings.uploadSteps = none
  downloadSteps : settings.downloadSteps = none
  jobs : settings.jobs = none

namespace Pipeline

structure Overrides where
  cacheSteps : Bool := false
  uploadSteps : Bool := false
  downloadSteps : Bool := false
  jobs : Bool := false
  deriving DecidableEq, Repr

namespace Overrides

/-- Each part that is given is what its generator makes of the settings; `jobs` are those that come
out for the settings. -/
def apply (overrides : Overrides) (root : Location) (settings : Settings) (jobs : List Job) :
    Settings :=
  { settings with
    cacheSteps :=
      if overrides.cacheSteps then some (Cache.steps settings.dependencyPatterns)
      else settings.cacheSteps
    uploadSteps :=
      if overrides.uploadSteps then some (Artifact.uploads (targets root settings))
      else settings.uploadSteps
    downloadSteps :=
      if overrides.downloadSteps then
        some (Artifact.downloads (targets root settings) settings.scalaVersions)
      else settings.downloadSteps
    jobs := if overrides.jobs then some jobs else settings.jobs }

end Overrides

/-! ## Parts -/

variable {root : Location} {settings : Settings}

/-- It makes no difference whether a part is given or left to its generator. -/
theorem getD_ite_some {α : Type} {part : Option α} (h : part = none) (given : Bool)
    (generated : α) : (if given then some generated else part).getD generated = generated := by
  cases given with
  | false => rw [if_neg Bool.false_ne_true, h, Option.getD_none]
  | true => rw [if_pos rfl, Option.getD_some]

variable (overrides : Overrides) (given : List Job)

theorem cacheSteps_apply (h : settings.cacheSteps = none) :
    cacheSteps (overrides.apply root settings given) = cacheSteps settings := by
  have hgenerated : cacheSteps settings = Cache.steps settings.dependencyPatterns := by
    rw [cacheSteps, h, Option.getD_none]
  rw [hgenerated]
  exact getD_ite_some h overrides.cacheSteps _

theorem uploadSteps_apply (h : settings.uploadSteps = none) :
    uploadSteps root (overrides.apply root settings given) = uploadSteps root settings := by
  have hgenerated : uploadSteps root settings = Artifact.uploads (targets root settings) := by
    rw [uploadSteps, h, Option.getD_none]
  rw [hgenerated]
  exact getD_ite_some h overrides.uploadSteps _

theorem downloadSteps_apply (h : settings.downloadSteps = none) :
    downloadSteps root (overrides.apply root settings given) = downloadSteps root settings := by
  have hgenerated : downloadSteps root settings =
      Artifact.downloads (targets root settings) settings.scalaVersions := by
    rw [downloadSteps, h, Option.getD_none]
  rw [hgenerated]
  exact getD_ite_some h overrides.downloadSteps _

/-! ## Jobs -/

theorem preamble_apply (h : settings.cacheSteps = none) :
    preamble (overrides.apply root settings given) = preamble settings := by
  rw [preamble, preamble, cacheSteps_apply overrides given h]
  rfl

theorem buildJob_apply (hcache : settings.cacheSteps = none)
    (hupload : settings.uploadSteps = none) :
    buildJob root (overrides.apply root settings given) = buildJob root settings := by
  rw [buildJob, preamble_apply overrides given hcache, uploadSteps_apply overrides given hupload]
  rfl

theorem publishJob_apply (hcache : settings.cacheSteps = none)
    (hdownload : settings.downloadSteps = none) :
    publishJob root (overrides.apply root settings given) = publishJob root settings := by
  rw [publishJob, preamble_apply overrides given hcache,
    downloadSteps_apply overrides given hdownload]
  rfl

/-- Given jobs are taken as they are, all other ones are put together again. -/
theorem jobs_apply (h : settings.Generated) (hjobs : jobs root settings = .ok given) :
    jobs root (overrides.apply root settings given) = .ok given := by
  cases hoverride : overrides.jobs with
  | true =>
    have hgiven : (overrides.apply root settings given).jobs = some given := if_pos hoverride
    rw [jobs, hgiven]
  | false =>
    have hgenerated : (overrides.apply root settings given).jobs = none := by
      rw [← h.jobs]
      exact if_neg (by simp [hoverride])
    rw [← hjobs, jobs, jobs, hgenerated, h.jobs]
    simp only [buildJob_apply overrides given h.cacheSteps h.uploadSteps,
      publishJob_apply overrides given h.cacheSteps h.downloadSteps]
    rfl

/-- Settings from which jobs come out lead to the same workflow, and to the same document, if any of
the parts that the pipeline generates are given in just that form. -/
theorem workflow_overridden (h : settings.Generated) (hjobs : jobs root settings = .ok given) :
    workflow root (overrides.apply root settings given) = workflow root settings ∧
      document root (overrides.apply root settings given) = document root settings := by
  have hworkflow :
      workflow root (overrides.apply root settings given) = workflow root settings := by
    rw [workflow, workflow, jobs_apply overrides given h hjobs, hjobs]
    rfl
  exact ⟨hworkflow, by rw [document, document, hworkflow]⟩

/-- Every generator has something to look at: an absolute target, two versions, a Windows runner. -/
def everyGenerator : Settings where
  targetDirs := ["target", "/work/core/target"]
  scalaVersions := ["2.12.10", "2.13.1"]
  oses := ["windows-latest"]
  dependencyPatterns := ["build.sbt"]

/-- The steps of both jobs are given, and then the jobs as well. -/
theorem workflow_overridden_everyGenerator : everyGenerator.Generated ∧
    ∃ given, jobs ["work"] everyGenerator = .ok given ∧
      Overrides.apply ⟨true, true, true, false⟩ ["work"] everyGenerator given ≠ everyGenerator ∧
      document ["work"] (Overrides.apply ⟨true, true, true, false⟩ ["work"] everyGenerator given) =
        document ["work"] everyGenerator ∧
      workflow ["work"] (Overrides.apply ⟨true, true, true, true⟩ ["work"] everyGenerator given) =
        workflow ["work"] everyGenerator := by
  have hgenerated : everyGenerator.Generated := ⟨rfl, rfl, rfl, rfl⟩
  obtain ⟨given, hjobs⟩ := exists_ok_of_isOk (r := jobs ["work"] everyGenerator) (by decide +kernel)
  refine ⟨hgenerated, given, hjobs, ?_, ?_, ?_⟩
  · intro hsame
    cases congrArg Settings.cacheSteps hsame
  · exact (workflow_overridden ⟨true, true, true, false⟩ given hgenerated hjobs).2
  · exact (workflow_overridden ⟨true, true, true, true⟩ given hgenerated hjobs).1

end Pipeline
end CiPipeline
