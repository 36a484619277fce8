import CiPipeline.Pipeline
import CiPipeline.Proofs.Lines
import CiPipeline.Proofs.Matrix

/-!
# CiPipeline.Proofs.HandOver

Whether the publish job finds the artifacts that the build job left.

* `dashed`               — what the names of artifacts are made of.
* `HandedOver`           — in every cell, each download has an upload of the same name and path.
* `Supplied`             — the same said of the axes of the two jobs.
* `handedOver_iff`       — of the standard pipeline: it takes the runner and the Java version that
                           the publish job is fixed to, whatever the settings ask for.
-/

namespace CiPipeline
namespace Artifact

def parameter? (key : String) (step : Step) : Option String :=
  match step.action with
  | .use _ _ _ params => params.get? key
  | .run _ | .sbt _ | .unrecognised _ => none

/-- The name of the artifact of a step, as it is known in a cell of the matrix. -/
def nameIn (cell : Cell) (step : Step) : Option Text :=
  (parameter? "name" step).map fun name : String => cell.fill name

/-- The upload, run in the cell `origin`, leaves what the download asks for in `cell`. -/
def Finds (origin : Cell) (upload : Step) (cell : Cell) (download : Step) : Prop :=
  nameIn origin upload = nameIn cell download ∧
    parameter? "path" upload = parameter? "path" download

def HandedOver (build publish : Job) (uploads downloads : List Step) : Prop :=
  ∀ cell ∈ publish.cells, ∀ download ∈ downloads,
    ∃ origin ∈ build.cells, ∃ upload ∈ uploads, Finds origin upload cell download

/-! ## Names -/

def dashed (texts : List Text) : Text := Text.joined ['-'] texts

theorem dashed_cons_cons (t u : Text) (rest : List Text) :
    dashed (t :: u :: rest) = t ++ '-' :: dashed (u :: rest) := by
  rw [dashed, Text.joined_cons_cons, List.append_assoc]
  rfl

theorem dashed_append_singleton {texts : List Text} (hne : texts ≠ []) (t : Text) :
    dashed (texts ++ [t]) = dashed texts ++ '-' :: t := by
  induction texts with
  | nil => exact absurd rfl hne
  | cons u rest ih =>
    cases rest with
    | nil => simp [dashed, Text.joined_cons]
    | cons v more =>
      rw [List.cons_append, List.cons_append, dashed_cons_cons, dashed_cons_cons,
        ← List.cons_append, ih (by simp), List.append_assoc]
      rfl

theorem dashed_cons_inj {t : Text} {us vs : List Text} (hus : us ≠ []) (hvs : vs ≠ []) :
    dashed (t :: us) = dashed (t :: vs) ↔ dashed us = dashed vs := by
  cases us with
  | nil => exact absurd rfl hus
  | cons u us =>
    cases vs with
    | nil => exact absurd rfl hvs
    | cons v vs =>
      rw [dashed_cons_cons, dashed_cons_cons, List.append_cancel_left_eq, List.cons.injEq]
      simp

theorem dashed_append_inj (us vs : List Text) (t : Text) (hus : us ≠ []) (hvs : vs ≠ []) :
    dashed (us ++ [t]) = dashed (vs ++ [t]) ↔ dashed us = dashed vs := by
  rw [dashed_append_singleton hus, dashed_append_singleton hvs, List.append_cancel_right_eq]

theorem fill_dashed (cell : Cell) (texts : List Text) :
    cell.fill (dashed texts) = dashed (texts.map cell.fill) := by
  cases texts with
  | nil => rfl
  | cons first rest =>
    refine Text.map_joined (fun t u => ?_) (List.cons_ne_nil first rest)
    rw [List.append_assoc, List.singleton_append, Cell.fill_append_dash, List.append_assoc]
    rfl

theorem name_eq (target version : String) :
    (name target version).toList =
      dashed ["target", matrixOs, version, matrixJava, sanitise target] := by
  simp [name, dashed, Text.joined_cons]

theorem definitionName_eq :
    definitionName.toList = dashed ["target", matrixOs, matrixJava, "project_target"] := by
  simp [definitionName, dashed, Text.joined_cons]

theorem sanitise_definitionTarget : sanitise definitionTarget = "project_target".toList := by
  decide

theorem fill_target (cell : Cell) : cell.fill "target" = "target".toList :=
  Cell.fill_of_constant (by decide)

theorem fill_projectTarget (cell : Cell) :
    cell.fill "project_target" = "project_target".toList :=
  Cell.fill_of_constant (by decide)

theorem fill_name (cell : Cell) (target version : String) :
    cell.fill (name target version) =
      dashed ["target", cell.os, cell.fill version, cell.java, cell.fill (sanitise target)] := by
  rw [name_eq, fill_dashed]
  simp only [List.map_cons, List.map_nil, fill_target, Cell.fill_matrixOs, Cell.fill_matrixJava]

theorem fill_definitionName (cell : Cell) :
    cell.fill definitionName = dashed ["target", cell.os, cell.java, "project_target"] := by
  rw [definitionName_eq, fill_dashed]
  simp only [List.map_cons, List.map_nil, fill_target, fill_projectTarget, Cell.fill_matrixOs,
    Cell.fill_matrixJava]

/-! ## One download -/

theorem mem_uploads {targets : List String} {step : Step} :
    step ∈ uploads targets ↔
      (∃ target ∈ targets, upload target = step) ∨
        step = definitionStep "upload-artifact" "Upload" := by
  rw [uploads, List.mem_append, List.mem_map, List.mem_singleton]

theorem mem_downloads {targets versions : List String} {step : Step} :
    step ∈ downloads targets versions ↔
      (∃ target ∈ targets, ∃ version ∈ versions, download target version = step) ∨
        step = definitionStep "download-artifact" "Download" := by
  simp only [downloads, List.mem_append, List.mem_flatMap, List.mem_map, List.mem_singleton]

section Finds

variable {origin cell : Cell} {target other version : String}

theorem nameIn_step (cell : Cell) (action label artifact path : String) :
    nameIn cell (step action label artifact path) = some (cell.fill artifact) := rfl

theorem parameter?_path (action label artifact path : String) :
    parameter? "path" (step action label artifact path) = some path := rfl

theorem finds_upload_download :
    Finds origin (upload other) cell (download target version) ↔
      dashed [origin.os, origin.scala, origin.java, origin.fill (sanitise other)] =
          dashed [cell.os, cell.fill version, cell.java, cell.fill (sanitise target)] ∧
        other = target := by
  rw [Finds, upload, download, nameIn_step, nameIn_step, parameter?_path, parameter?_path,
    Option.some_inj, Option.some_inj, fill_name, fill_name, Cell.fill_matrixScala,
    dashed_cons_inj (by simp) (by simp)]

theorem finds_definition_download :
    Finds origin (definitionStep "upload-artifact" "Upload") cell (download target version) ↔
      dashed [origin.os, origin.java] = dashed [cell.os, cell.fill version, cell.java] ∧
        definitionTarget = target := by
  rw [Finds, definitionStep, download, nameIn_step, nameIn_step, parameter?_path, parameter?_path,
    Option.some_inj, Option.some_inj, fill_definitionName, fill_name,
    dashed_cons_inj (by simp) (by simp)]
  apply and_congr_left
  rintro rfl
  rw [sanitise_definitionTarget, fill_projectTarget]
  exact dashed_append_inj [origin.os, origin.java] [cell.os, cell.fill version, cell.java] _
    (by simp) (by simp)

theorem finds_upload_definition :
    Finds origin (upload other) cell (definitionStep "download-artifact" "Download") ↔
      dashed [origin.os, origin.scala, origin.java] = dashed [cell.os, cell.java] ∧
        other = definitionTarget := by
  rw [Finds, definitionStep, upload, nameIn_step, nameIn_step, parameter?_path, parameter?_path,
    Option.some_inj, Option.some_inj, fill_definitionName, fill_name, Cell.fill_matrixScala,
    dashed_cons_inj (by simp) (by simp)]
  apply and_congr_left
  rintro rfl
  rw [sanitise_definitionTarget, fill_projectTarget]
  exact dashed_append_inj [origin.os, origin.scala, origin.java] [cell.os, cell.java] _
    (by simp) (by simp)

theorem finds_definition :
    Finds origin (definitionStep "upload-artifact" "Upload") cell
        (definitionStep "download-artifact" "Download") ↔
      dashed [origin.os, origin.java] = dashed [cell.os, cell.java] := by
  rw [Finds, definitionStep, definitionStep, nameIn_step, nameIn_step, parameter?_path,
    parameter?_path, Option.some_inj, fill_definitionName, fill_definitionName,
    dashed_cons_inj (by simp) (by simp), and_iff_left rfl]
  exact dashed_append_inj [origin.os, origin.java] [cell.os, cell.java] _ (by simp) (by simp)

end Finds

/-! ## All downloads -/

/-- The cells of the build job leave what is asked for in a cell of the publish job. The path
`project/target` may be that of a configured target directory as well. -/
structure Supplied (build : Job) (cell : Cell) (targets versions : List String) : Prop where
  definition : ∃ origin ∈ build.cells,
    dashed [origin.os, origin.java] = dashed [cell.os, cell.java] ∨
      definitionTarget ∈ targets ∧
        dashed [origin.os, origin.scala, origin.java] = dashed [cell.os, cell.java]
  target : ∀ target ∈ targets, ∀ version ∈ versions, ∃ origin ∈ build.cells,
    dashed [origin.os, origin.scala, origin.java, origin.fill (sanitise target)] =
        dashed [cell.os, cell.fill version, cell.java, cell.fill (sanitise target)] ∨
      target = definitionTarget ∧
        dashed [origin.os, origin.java] = dashed [cell.os, cell.fill version, cell.java]

theorem exists_finds_definition {build : Job} {cell : Cell} {targets : List String} :
    (∃ origin ∈ build.cells, ∃ upload ∈ uploads targets,
        Finds origin upload cell (definitionStep "download-artifact" "Download")) ↔
      ∃ origin ∈ build.cells,
        dashed [origin.os, origin.java] = dashed [cell.os, cell.java] ∨
          definitionTarget ∈ targets ∧
            dashed [origin.os, origin.scala, origin.java] = dashed [cell.os, cell.java] := by
  constructor
  · rintro ⟨origin, horigin, step, hstep, hfinds⟩
    refine ⟨origin, horigin, ?_⟩
    rcases mem_uploads.mp hstep with ⟨other, hother, rfl⟩ | rfl
    · obtain ⟨hname, rfl⟩ := finds_upload_definition.mp hfinds
      exact .inr ⟨hother, hname⟩
    · exact .inl (finds_definition.mp hfinds)
  · rintro ⟨origin, horigin, hname | ⟨htarget, hname⟩⟩
    · exact ⟨origin, horigin, _, mem_uploads.mpr (.inr rfl), finds_definition.mpr hname⟩
    · exact ⟨origin, horigin, _, mem_uploads.mpr (.inl ⟨_, htarget, rfl⟩),
        finds_upload_definition.mpr ⟨hname, rfl⟩⟩

theorem exists_finds_download {build : Job} {cell : Cell} {targets : List String}
    {target version : String} (htarget : target ∈ targets) :
    (∃ origin ∈ build.cells, ∃ upload ∈ uploads targets,
        Finds origin upload cell (download target version)) ↔
      ∃ origin ∈ build.cells,
        dashed [origin.os, origin.scala, origin.java, origin.fill (sanitise target)] =
            dashed [cell.os, cell.fill version, cell.java, cell.fill (sanitise target)] ∨
          target = definitionTarget ∧
            dashed [origin.os, origin.java] =
              dashed [cell.os, cell.fill version, cell.java] := by
  constructor
  · rintro ⟨origin, horigin, step, hstep, hfinds⟩
    refine ⟨origin, horigin, ?_⟩
    rcases mem_uploads.mp hstep with ⟨other, _, rfl⟩ | rfl
    · obtain ⟨hname, rfl⟩ := finds_upload_download.mp hfinds
      exact .inl hname
    · obtain ⟨hname, hpath⟩ := finds_definition_download.mp hfinds
      exact .inr ⟨hpath.symm, hname⟩
  · rintro ⟨origin, horigin, hname | ⟨hpath, hname⟩⟩
    · exact ⟨origin, horigin, _, mem_uploads.mpr (.inl ⟨_, htarget, rfl⟩),
        finds_upload_download.mpr ⟨hname, rfl⟩⟩
    · exact ⟨origin, horigin, _, mem_uploads.mpr (.inr rfl),
        finds_definition_download.mpr ⟨hname, hpath.symm⟩⟩

theorem handedOver_iff_supplied {build publish : Job} {targets versions : List String} :
    HandedOver build publish (uploads targets) (downloads targets versions) ↔
      ∀ cell ∈ publish.cells, Supplied build cell targets versions := by
  constructor
  · intro h cell hcell
    refine ⟨?_, ?_⟩
    · exact exists_finds_definition.mp (h cell hcell _ (mem_downloads.mpr (.inr rfl)))
    · intro target htarget version hversion
      exact (exists_finds_download htarget).mp (h cell hcell _
        (mem_downloads.mpr (.inl ⟨target, htarget, version, hversion, rfl⟩)))
  · intro h cell hcell step hstep
    rcases mem_downloads.mp hstep with ⟨target, htarget, version, hversion, rfl⟩ | rfl
    · exact (exists_finds_download htarget).mpr
        ((h cell hcell).target target htarget version hversion)
    · exact exists_finds_definition.mpr (h cell hcell).definition

/-! ## The standard runner -/

/-- Where the name of the standard runner can end in a name, no other runner being its start. -/
theorem cut_standard {os rest : Text} (hos : os ≠ "ubuntu")
    (h : os ++ '-' :: rest = dashed ["ubuntu-latest", "adopt@1.8"]) :
    os = "ubuntu-latest" ∧ rest = "adopt@1.8" := by
  have hpieces : Text.pieces '-' os ++ Text.pieces '-' rest =
      [("ubuntu" : Text), "latest", "adopt@1.8"] := by
    rw [← Text.pieces_append_sep, h]
    decide
  have hos' := Text.joined_pieces '-' os
  have hrest' := Text.joined_pieces '-' rest
  have hrestNe := Text.pieces_ne_nil '-' rest
  rcases hcut : Text.pieces '-' os with _ | ⟨first, _ | ⟨second, more⟩⟩
  · exact absurd hcut (Text.pieces_ne_nil '-' os)
  · rw [hcut, List.singleton_append, List.cons.injEq] at hpieces
    rw [hcut, hpieces.1] at hos'
    exact absurd hos'.symm hos
  · rw [hcut, List.cons_append, List.cons_append, List.cons.injEq, List.cons.injEq] at hpieces
    obtain ⟨rfl, rfl, hlast⟩ := hpieces
    cases more with
    | nil =>
      rw [List.nil_append] at hlast
      rw [hcut] at hos'
      rw [hlast] at hrest'
      exact ⟨hos'.symm, hrest'.symm⟩
    | cons third others =>
      rw [List.cons_append, List.cons.injEq] at hlast
      exact absurd (List.append_eq_nil_iff.mp hlast.2).2 hrestNe

section Standard

variable {build : Job} {targets versions : List String} {version : String}

/-- A job without the runner, or without the Java version, leaves nothing for the standard one. -/
theorem standard_of_supplied
    (h : Supplied build ⟨"ubuntu-latest", version, "adopt@1.8"⟩ targets versions)
    (hos : "ubuntu" ∉ build.oses) : "ubuntu-latest" ∈ build.oses ∧ "adopt@1.8" ∈ build.javas := by
  obtain ⟨origin, horigin, hname⟩ := h.definition
  obtain ⟨hruns, _, hjava⟩ := Job.mem_cells.mp horigin
  have hother : origin.os.toList ≠ "ubuntu".toList := by
    intro heq
    rw [String.toList_inj] at heq
    exact hos (heq ▸ hruns)
  rcases hname with hname | ⟨_, hname⟩
  · rw [dashed_cons_cons] at hname
    obtain ⟨hrunner, hversion⟩ := cut_standard hother hname
    rw [dashed, Text.joined_singleton, String.toList_inj] at hversion
    rw [String.toList_inj] at hrunner
    exact ⟨hrunner ▸ hruns, hversion ▸ hjava⟩
  · rw [dashed_cons_cons, dashed_cons_cons] at hname
    obtain ⟨_, hrest⟩ := cut_standard hother hname
    have hdash : '-' ∈ "adopt@1.8".toList := hrest ▸ by simp
    exact absurd hdash (by decide)

theorem supplied_of_standard (hruns : "ubuntu-latest" ∈ build.oses)
    (hjava : "adopt@1.8" ∈ build.javas) (hscalas : build.scalas = versions) (hne : versions ≠ [])
    (hversions : ∀ version ∈ versions, Cell.Constant version)
    (htargets : ∀ target ∈ targets, Cell.Constant (sanitise target)) :
    Supplied build ⟨"ubuntu-latest", version, "adopt@1.8"⟩ targets versions := by
  have horigin : ∀ scala ∈ versions, ⟨"ubuntu-latest", scala, "adopt@1.8"⟩ ∈ build.cells := by
    intro scala hscala
    exact Job.mem_cells.mpr ⟨hruns, hscalas ▸ hscala, hjava⟩
  refine ⟨?_, ?_⟩
  · obtain ⟨scala, hscala⟩ := List.exists_mem_of_ne_nil versions hne
    exact ⟨_, horigin scala hscala, .inl rfl⟩
  · intro target htarget scala hscala
    refine ⟨_, horigin scala hscala, .inl ?_⟩
    have htarget' := htargets target htarget
    rw [Cell.fill_of_constant (hversions scala hscala), Cell.fill_of_constant htarget',
      Cell.fill_of_constant htarget']

end Standard
end Artifact

namespace Pipeline

open Artifact

variable {root : Location} {settings : Settings} {publish : Job}

theorem publishJob_eq (h : publishJob root settings = .ok (some publish)) :
    settings.publishBranches.isEmpty = false ∧
      (∃ version, settings.primaryScalaVersion = .ok version ∧
        publish.cells = [⟨"ubuntu-latest", version, "adopt@1.8"⟩]) ∧
      publish.steps = preamble settings ++ downloadSteps root settings ++ settings.publishPreamble
        ++ [settings.publish] := by
  rw [publishJob] at h
  split at h
  · cases h
  · rename_i hbranches
    split at h
    · cases h
    · split at h
      · cases h
      · rename_i version hversion
        cases h
        exact ⟨by simpa using hbranches, ⟨version, hversion, rfl⟩, rfl⟩

theorem uploadSteps_subset (h : settings.publishBranches.isEmpty = false) :
    uploadSteps root settings ⊆ (buildJob root settings).steps := by
  have hhands : handsOver settings = true := by simp [handsOver, h]
  intro step hstep
  rw [buildJob, if_pos hhands]
  exact List.mem_append_right _ hstep

/-- The publish job runs on the standard runner under the standard Java version, so what the build
job leaves is found exactly if it ran there as well. -/
theorem handedOver_iff (hup : settings.uploadSteps = none) (hdown : settings.downloadSteps = none)
    (hne : settings.scalaVersions ≠ []) (h : publishJob root settings = .ok (some publish)) :
    uploadSteps root settings ⊆ (buildJob root settings).steps ∧
    downloadSteps root settings ⊆ publish.steps ∧
    (∃ version, settings.primaryScalaVersion = .ok version ∧
      (HandedOver (buildJob root settings) publish (uploadSteps root settings)
          (downloadSteps root settings) ↔
        Supplied (buildJob root settings) ⟨"ubuntu-latest", version, "adopt@1.8"⟩
          (targets root settings) settings.scalaVersions)) ∧
    ("ubuntu" ∉ settings.oses → (∀ version ∈ settings.scalaVersions, Cell.Constant version) →
      (∀ target ∈ targets root settings, Cell.Constant (sanitise target)) →
      (HandedOver (buildJob root settings) publish (uploadSteps root settings)
          (downloadSteps root settings) ↔
        "ubuntu-latest" ∈ settings.oses ∧ "adopt@1.8" ∈ settings.javaVersions)) := by
  obtain ⟨hbranches, ⟨version, hversion, hcells⟩, hsteps⟩ := publishJob_eq h
  have hsupplied : HandedOver (buildJob root settings) publish (uploadSteps root settings)
        (downloadSteps root settings) ↔
      Supplied (buildJob root settings) ⟨"ubuntu-latest", version, "adopt@1.8"⟩
        (targets root settings) settings.scalaVersions := by
    rw [uploadSteps, downloadSteps, hup, hdown, Option.getD_none, Option.getD_none,
      handedOver_iff_supplied, hcells]
    simp only [List.mem_singleton, forall_eq]
  refine ⟨uploadSteps_subset hbranches, ?_, ⟨version, hversion, hsupplied⟩, ?_⟩
  · intro step hstep
    rw [hsteps]
    simp [hstep]
  · intro hos hversions htargets
    rw [hsupplied]
    constructor
    · intro hall
      exact standard_of_supplied hall hos
    · rintro ⟨hruns, hjava⟩
      exact supplied_of_standard hruns hjava rfl hne hversions htargets

/-- Two versions on either axis, the standard ones among them. -/
def severalVersions : Settings :=
  { scalaVersions := ["2.12.10", "2.13.1"], javaVersions := ["adopt@1.11", "adopt@1.8"]
    targetDirs := ["target", "core/target"] }

theorem severalVersions_handedOver : severalVersions.uploadSteps = none ∧
    severalVersions.downloadSteps = none ∧ severalVersions.scalaVersions ≠ [] ∧
    ∃ publish, publishJob [] severalVersions = .ok (some publish) ∧
      HandedOver (buildJob [] severalVersions) publish (uploadSteps [] severalVersions)
        (downloadSteps [] severalVersions) := by
  have hne : severalVersions.scalaVersions ≠ [] := List.cons_ne_nil _ _
  obtain ⟨publish, hpublish⟩ :
      ∃ publish, publishJob [] severalVersions = .ok (some publish) := ⟨_, rfl⟩
  obtain ⟨_, _, _, hstandard⟩ := handedOver_iff rfl rfl hne hpublish
  refine ⟨rfl, rfl, hne, publish, hpublish, ?_⟩
  exact (hstandard (by decide) (by decide +kernel) (by decide +kernel)).mpr (by decide)

/-- The standard Java version is not among those that are built. -/
def newerJava : Settings := { javaVersions := ["adopt@1.11"] }

theorem newerJava_not_handedOver : ∃ publish, publishJob [] newerJava = .ok (some publish) ∧
    ¬ HandedOver (buildJob [] newerJava) publish (uploadSteps [] newerJava)
      (downloadSteps [] newerJava) := by
  refine ⟨_, rfl, ?_⟩
  intro h
  have hsupplied :=
    handedOver_iff_supplied.mp h ⟨"ubuntu-latest", "2.13.1", "adopt@1.8"⟩ (by decide)
  exact absurd (standard_of_supplied hsupplied (by decide)).2 (by decide)

end Pipeline
end CiPipeline
