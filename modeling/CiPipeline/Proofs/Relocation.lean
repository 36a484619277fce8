import CiPipeline.Pipeline
import CiPipeline.Proofs.PathText
import CiPipeline.Proofs.Results
import Mathlib.Data.List.Forall2

/-!
# CiPipeline.Proofs.Relocation

The same project, checked out in two places.

* `SameTarget`         — two ways to name a target directory, one for each place.
* `Settings.Relocated` — settings that name the same targets and agree in everything else.
* `normaliseTarget_below`  — a target under the root gets its text below the root, however the root
                             is written.
* `document_eq_of_targets` — the root gets into the document by the targets alone.
* `document_relocated`     — the two places have the same document, or the same error.
-/

namespace CiPipeline

/-- A relative target stays as it is; an absolute one moves with the root. -/
inductive SameTarget (root₁ root₂ : String) : String → String → Prop where
  | relative (target : String) (h : (Path.parse target).isAbsolute = false) :
    SameTarget root₁ root₂ target target
  | under (target : String) (h : Path.Clean target) :
    SameTarget root₁ root₂ (root₁ ++ "/" ++ target) (root₂ ++ "/" ++ target)

structure Settings.Relocated (root₁ root₂ : String) (s₁ s₂ : Settings) : Prop where
  rest : s₂ = { s₁ with targetDirs := s₂.targetDirs }
  targets : List.Forall₂ (SameTarget root₁ root₂) s₁.targetDirs s₂.targetDirs

namespace Pipeline

/-! ## Targets -/

theorem normaliseTarget_relative {target : String} (h : (Path.parse target).isAbsolute = false)
    (root : Location) : normaliseTarget root target = (Path.parse target).toString := by
  simp only [normaliseTarget, h, Bool.false_eq_true, if_false]

theorem normaliseTarget_below {root target : String} (hroot : (Path.parse root).isAbsolute = true)
    (htarget : Path.Clean target) (current : Location) :
    normaliseTarget ((Path.parse root).resolve current) (root ++ "/" ++ target) = target := by
  have habsolute : (Path.parse (root ++ "/" ++ target)).isAbsolute = true := by
    rw [String.append_assoc]
    exact Path.isAbsolute_append hroot _
  rw [normaliseTarget, if_pos habsolute, Path.resolve_below hroot htarget [] current,
    Path.relative_append, Path.toString_of_clean htarget]

theorem normaliseTarget_same {root₁ root₂ : String} (h₁ : (Path.parse root₁).isAbsolute = true)
    (h₂ : (Path.parse root₂).isAbsolute = true) (current₁ current₂ : Location)
    {target₁ target₂ : String} (h : SameTarget root₁ root₂ target₁ target₂) :
    normaliseTarget ((Path.parse root₁).resolve current₁) target₁ =
      normaliseTarget ((Path.parse root₂).resolve current₂) target₂ := by
  cases h with
  | relative _ h => rw [normaliseTarget_relative h, normaliseTarget_relative h]
  | under _ h => rw [normaliseTarget_below h₁ h, normaliseTarget_below h₂ h]

theorem targets_relocated {root₁ root₂ : String} (h₁ : (Path.parse root₁).isAbsolute = true)
    (h₂ : (Path.parse root₂).isAbsolute = true) (current₁ current₂ : Location)
    {s₁ s₂ : Settings} (h : List.Forall₂ (SameTarget root₁ root₂) s₁.targetDirs s₂.targetDirs) :
    targets ((Path.parse root₁).resolve current₁) s₁ =
      targets ((Path.parse root₂).resolve current₂) s₂ := by
  rw [targets, targets, ← List.forall₂_eq_eq_eq, List.forall₂_map_left_iff,
    List.forall₂_map_right_iff]
  exact h.imp fun _ _ hsame => normaliseTarget_same h₁ h₂ current₁ current₂ hsame

/-! ## From the targets to the document

Nothing else that the pipeline is put together from looks at the root or at the target directories.
-/

section

variable {root₁ root₂ : Location} {settings : Settings} {dirs : List String}

theorem uploadSteps_eq_of_targets
    (h : targets root₁ settings = targets root₂ { settings with targetDirs := dirs }) :
    uploadSteps root₁ settings = uploadSteps root₂ { settings with targetDirs := dirs } := by
  rw [uploadSteps, uploadSteps, h]

theorem downloadSteps_eq_of_targets
    (h : targets root₁ settings = targets root₂ { settings with targetDirs := dirs }) :
    downloadSteps root₁ settings = downloadSteps root₂ { settings with targetDirs := dirs } := by
  rw [downloadSteps, downloadSteps, h]

theorem buildJob_eq_of_targets
    (h : targets root₁ settings = targets root₂ { settings with targetDirs := dirs }) :
    buildJob root₁ settings = buildJob root₂ { settings with targetDirs := dirs } := by
  rw [buildJob, uploadSteps_eq_of_targets h]
  rfl

theorem publishJob_eq_of_targets
    (h : targets root₁ settings = targets root₂ { settings with targetDirs := dirs }) :
    publishJob root₁ settings = publishJob root₂ { settings with targetDirs := dirs } := by
  rw [publishJob, downloadSteps_eq_of_targets h]
  rfl

theorem jobs_eq_of_targets
    (h : targets root₁ settings = targets root₂ { settings with targetDirs := dirs }) :
    jobs root₁ settings = jobs root₂ { settings with targetDirs := dirs } := by
  rw [jobs, buildJob_eq_of_targets h, publishJob_eq_of_targets h]
  rfl

theorem workflow_eq_of_targets
    (h : targets root₁ settings = targets root₂ { settings with targetDirs := dirs }) :
    workflow root₁ settings = workflow root₂ { settings with targetDirs := dirs } := by
  rw [workflow, jobs_eq_of_targets h]
  rfl

theorem document_eq_of_targets
    (h : targets root₁ settings = targets root₂ { settings with targetDirs := dirs }) :
    document root₁ settings = document root₂ { settings with targetDirs := dirs } := by
  rw [document, document, workflow_eq_of_targets h]

end

/-- Wherever the two roots lead, and however many detours they take on the way. -/
theorem document_relocated (current₁ current₂ : Location) {root₁ root₂ : String}
    {s₁ s₂ : Settings} (h₁ : (Path.parse root₁).isAbsolute = true)
    (h₂ : (Path.parse root₂).isAbsolute = true) (h : Settings.Relocated root₁ root₂ s₁ s₂) :
    document ((Path.parse root₁).resolve current₁) s₁ =
      document ((Path.parse root₂).resolve current₂) s₂ := by
  have htargets := targets_relocated h₁ h₂ current₁ current₂ h.targets
  rw [h.rest] at htargets ⊢
  exact document_eq_of_targets htargets

/-- One checkout is written with detours, the other one is the root itself. -/
theorem document_relocated_checkouts :
    (∃ text, document ((Path.parse "//").resolve [])
        { targetDirs := ["out/../bin", "///core/target"] } = .ok text) ∧
    document ((Path.parse "/home/../work//project/.").resolve ["home"])
        { targetDirs := ["out/../bin", "/home/../work//project/./core/target"] } =
      document ((Path.parse "//").resolve [])
        { targetDirs := ["out/../bin", "///core/target"] } := by
  refine ⟨?_, document_relocated ["home"] [] (by decide) (by decide) ⟨rfl, ?_⟩⟩
  · exact exists_ok_of_isOk (by decide +kernel)
  · exact .cons (.relative "out/../bin" (by decide))
      (.cons (.under "core/target" (by decide)) .nil)

end Pipeline
end CiPipeline
