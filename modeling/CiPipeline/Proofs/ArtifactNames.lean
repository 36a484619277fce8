import Mathlib.Data.List.Forall2
import CiPipeline.Proofs.HandOver

/-!
# CiPipeline.Proofs.ArtifactNames

Which target directories share an artifact.

* `Text.append_mark_inj` — a text ends where a mark that is not in it follows.
* `merge`              — what becomes of one character of a target directory.
* `sanitise_eq_map`    — replacing the forbidden characters in turn is replacing them at once.
* `Merged`             — characters that a name does not tell apart.
* `Carries`            — a step for the artifact of a target directory and a version.
* `name_collides_iff`  — two artifacts have one name only for the same version and target
                         directories that are merged character by character.
-/

namespace CiPipeline

namespace Text

variable {mark t u rest rest' : Text} {sep : Char}

theorem append_ne_mark (hsep : sep ∉ mark) (ht : ¬ mark <:+: t) :
    t ++ sep :: rest ≠ mark ++ sep :: rest' := by
  intro h
  rcases List.append_eq_append_iff.mp h with ⟨cut, rfl, hcut⟩ | ⟨cut, rfl, -⟩
  · cases cut with
    | nil =>
      rw [List.append_nil] at ht
      exact ht (List.infix_refl t)
    | cons c cut =>
      obtain ⟨rfl, -⟩ := List.cons.inj hcut
      simp at hsep
  · exact ht (List.prefix_append mark cut).isInfix

/-- The mark cannot overlap a copy of it, as the separator in front is no part of it. -/
theorem eq_nil_of_mark {cut : Text} (hsep : sep ∉ mark) (hcut : ¬ mark <:+: cut)
    (h : sep :: (mark ++ sep :: rest) = cut ++ sep :: (mark ++ sep :: rest')) : cut = [] := by
  cases cut with
  | nil => rfl
  | cons c cut =>
    have hclear : ¬ mark <:+: cut := fun hmark => hcut (List.infix_cons hmark)
    exact absurd (List.cons.inj h).2.symm (append_ne_mark hsep hclear)

theorem append_mark_inj (hsep : sep ∉ mark) (ht : ¬ mark <:+: t) (hu : ¬ mark <:+: u)
    (h : t ++ sep :: (mark ++ sep :: rest) = u ++ sep :: (mark ++ sep :: rest')) :
    t = u ∧ rest = rest' := by
  have htexts : t = u := by
    rcases List.append_eq_append_iff.mp h with ⟨cut, rfl, hcut⟩ | ⟨cut, rfl, hcut⟩
    · have hclear : ¬ mark <:+: cut := fun hmark =>
        hu (hmark.trans (List.suffix_append t cut).isInfix)
      rw [eq_nil_of_mark hsep hclear hcut, List.append_nil]
    · have hclear : ¬ mark <:+: cut := fun hmark =>
        ht (hmark.trans (List.suffix_append u cut).isInfix)
      rw [eq_nil_of_mark hsep hclear hcut, List.append_nil]
  rw [htexts] at h
  have hbehind := List.append_cancel_left (List.cons.inj (List.append_cancel_left h)).2
  exact ⟨htexts, (List.cons.inj hbehind).2⟩

end Text

namespace Artifact

/-! ## Sanitising -/

def merge (c : Char) : Char := if c ∈ forbidden then '_' else c

theorem foldl_replaced {chars : List Char} (h : '_' ∉ chars) (t : Text) :
    chars.foldl replaced t = t.map fun d => if d ∈ chars then '_' else d := by
  induction chars generalizing t with
  | nil => simp
  | cons c chars ih =>
    rw [List.mem_cons, not_or] at h
    rw [List.foldl_cons, ih h.2, replaced, List.map_map]
    congr 1
    funext d
    by_cases hd : d = c
    · simp [hd, h.2]
    · simp [hd]

theorem sanitise_eq_map (t : Text) : sanitise t = t.map merge :=
  foldl_replaced (by decide) t

theorem forbidden_notMem_sanitise (t : Text) {c : Char} (hc : c ∈ forbidden) : c ∉ sanitise t := by
  rw [sanitise_eq_map]
  intro hmem
  obtain ⟨d, -, rfl⟩ := List.mem_map.mp hmem
  rw [merge] at hc
  split at hc
  · exact absurd hc (by decide)
  · contradiction

/-- A character that is not forbidden is told, but for the one that stands for those that are. -/
def Merged (c d : Char) : Prop := c = d ∨ c ∈ '_' :: forbidden ∧ d ∈ '_' :: forbidden

instance (c d : Char) : Decidable (Merged c d) := inferInstanceAs (Decidable (_ ∨ _))

theorem merge_eq_underscore_iff {c : Char} : merge c = '_' ↔ c ∈ '_' :: forbidden := by
  rw [merge, List.mem_cons]
  split
  · rename_i hc
    simp [hc]
  · rename_i hc
    simp [hc]

theorem merge_of_ne {c : Char} (h : merge c ≠ '_') : merge c = c := by
  rw [merge] at h ⊢
  split at h
  · exact absurd rfl h
  · rename_i hc
    rw [if_neg hc]

theorem merge_eq_iff {c d : Char} : merge c = merge d ↔ Merged c d := by
  rw [Merged, ← merge_eq_underscore_iff, ← merge_eq_underscore_iff]
  constructor
  · intro h
    by_cases hc : merge c = '_'
    · exact .inr ⟨hc, h ▸ hc⟩
    · have hd : merge d ≠ '_' := h ▸ hc
      rw [merge_of_ne hc, merge_of_ne hd] at h
      exact .inl h
  · rintro (rfl | ⟨hc, hd⟩)
    · rfl
    · rw [hc, hd]

theorem sanitise_eq_iff {t u : Text} : sanitise t = sanitise u ↔ List.Forall₂ Merged t u := by
  rw [sanitise_eq_map, sanitise_eq_map, ← List.forall₂_eq_eq_eq, List.forall₂_map_left_iff,
    List.forall₂_map_right_iff]
  simp only [merge_eq_iff]

/-! ## Names -/

/-- The step that is made for a target directory and a version: an upload is for the version of the
cell that it runs in. -/
inductive Carries : Step → String → String → Prop where
  | upload (target : String) : Carries (upload target) target matrixScala
  | download (target version : String) : Carries (download target version) target version

variable {step other : Step} {target version target' version' : String}

theorem parameter?_name (h : Carries step target version) :
    parameter? "name" step = some (name target version) := by
  cases h <;> rfl

theorem dash_notMem_matrixJava : '-' ∉ matrixJava.toList := by decide

theorem name_eq_name_iff (h : ¬ matrixJava.toList <:+: version.toList)
    (h' : ¬ matrixJava.toList <:+: version'.toList) :
    name target version = name target' version' ↔
      version = version' ∧ sanitise target = sanitise target' := by
  rw [← String.toList_inj, name_eq, name_eq, dashed_cons_inj (by simp) (by simp),
    dashed_cons_inj (by simp) (by simp), dashed_cons_cons, dashed_cons_cons, dashed_cons_cons,
    dashed_cons_cons]
  constructor
  · intro hnames
    obtain ⟨hversion, htarget⟩ := Text.append_mark_inj dash_notMem_matrixJava h h' hnames
    rw [dashed, dashed, Text.joined_singleton, Text.joined_singleton] at htarget
    exact ⟨String.toList_inj.mp hversion, htarget⟩
  · rintro ⟨rfl, htarget⟩
    rw [htarget]

theorem name_ne_definitionName (h : ¬ matrixJava.toList <:+: version.toList) :
    name target version ≠ definitionName := by
  rw [Ne, ← String.toList_inj, name_eq, definitionName_eq, dashed_cons_inj (by simp) (by simp),
    dashed_cons_inj (by simp) (by simp), dashed_cons_cons, dashed_cons_cons]
  exact Text.append_ne_mark dash_notMem_matrixJava h

/-- Steps carry the same artifact only for one version and for target directories that are merged
character by character, and never that of the build definition; in what a name tells of its target
directory no character is forbidden. -/
theorem name_collides_iff (hstep : Carries step target version)
    (hother : Carries other target' version')
    (hversion : ¬ matrixJava.toList <:+: version.toList)
    (hversion' : ¬ matrixJava.toList <:+: version'.toList) :
    (parameter? "name" step = parameter? "name" other ↔
      version = version' ∧ List.Forall₂ Merged target.toList target'.toList) ∧
    (∀ action verb, parameter? "name" step ≠ parameter? "name" (definitionStep action verb)) ∧
    ∀ step target version, Carries step target version →
      parameter? "name" step = some ("target-" ++ matrixOs ++ "-" ++ version ++ "-" ++ matrixJava
        ++ "-" ++ String.ofList (sanitise target)) ∧
      ∀ c ∈ forbidden, c ∉ sanitise target := by
  refine ⟨?_, ?_, ?_⟩
  · rw [parameter?_name hstep, parameter?_name hother, Option.some_inj,
      name_eq_name_iff hversion hversion', sanitise_eq_iff]
  · intro action verb hname
    rw [parameter?_name hstep] at hname
    exact name_ne_definitionName hversion (Option.some_inj.mp hname)
  · intro step target version hcarries
    exact ⟨parameter?_name hcarries, fun c hc => forbidden_notMem_sanitise target hc⟩

/-- A target directory with a reference in it, like the one in front of it, and one that is merged
with it. -/
theorem name_collides_lookalikes :
    ¬ matrixJava.toList <:+: matrixScala.toList ∧
    Carries (upload (matrixJava ++ "-/b")) (matrixJava ++ "-/b") matrixScala ∧
    Carries (download (matrixJava ++ "-?b") matrixScala) (matrixJava ++ "-?b") matrixScala ∧
    parameter? "name" (upload (matrixJava ++ "-/b")) =
      parameter? "name" (download (matrixJava ++ "-?b") matrixScala) := by
  have hclear : ¬ matrixJava.toList <:+: matrixScala.toList := by
    rw [← Text.occursIn_iff]
    decide
  have hupload := Carries.upload (matrixJava ++ "-/b")
  have hdownload := Carries.download (matrixJava ++ "-?b") matrixScala
  refine ⟨hclear, hupload, hdownload, ?_⟩
  rw [(name_collides_iff hupload hdownload hclear hclear).1]
  exact ⟨rfl, by decide⟩

end Artifact
end CiPipeline
