import CiPipeline.Job

/-!
# CiPipeline.Proofs.Matrix

What a text with references to the matrix stands for in one cell of it.

* `Job.cells`           — every combination of the three fixed axes.
* `Cell.fill`           — the text with the values of the cell in the place of the references.
* `Cell.fill_append_dash` — a dash is part of no reference, so the two sides are filled apart.
* `Constant`            — a text without references, the same in every cell.
-/

namespace CiPipeline

structure Cell where
  os : String
  scala : String
  java : String
  deriving DecidableEq

def Job.cells (job : Job) : List Cell :=
  job.oses.flatMap fun os =>
    job.scalas.flatMap fun scala => job.javas.map fun java => ⟨os, scala, java⟩

theorem Job.mem_cells {job : Job} {cell : Cell} :
    cell ∈ job.cells ↔ cell.os ∈ job.oses ∧ cell.scala ∈ job.scalas ∧ cell.java ∈ job.javas := by
  rw [cells, List.mem_flatMap]
  constructor
  · rintro ⟨os, hos, hcell⟩
    obtain ⟨scala, hscala, hcell⟩ := List.mem_flatMap.mp hcell
    obtain ⟨java, hjava, rfl⟩ := List.mem_map.mp hcell
    exact ⟨hos, hscala, hjava⟩
  · rintro ⟨hos, hscala, hjava⟩
    exact ⟨cell.os, hos, List.mem_flatMap.mpr ⟨cell.scala, hscala,
      List.mem_map.mpr ⟨cell.java, hjava, rfl⟩⟩⟩

namespace Text

/-- A separator that is not in a text cannot help the text to be a prefix. -/
theorem isPrefixOf_append_sep {sep : Char} {needle : Text} (h : sep ∉ needle) (t u : Text) :
    needle.isPrefixOf (t ++ sep :: u) = needle.isPrefixOf t := by
  induction needle generalizing t with
  | nil => simp
  | cons c rest ih =>
    rw [List.mem_cons, not_or] at h
    cases t with
    | nil =>
      have hc : (c == sep) = false := by simpa using Ne.symm h.1
      simp [List.isPrefixOf, hc]
    | cons d more => rw [List.cons_append, List.isPrefixOf, List.isPrefixOf, ih h.2]

end Text

namespace Cell

variable {cell : Cell}

/-- The references, each with what it stands for. -/
def references (cell : Cell) : List (Text × Text) :=
  [(matrixOs, cell.os), (matrixScala, cell.scala), (matrixJava, cell.java)]

/-- The reference that a text starts with. -/
def reference? (cell : Cell) (t : Text) : Option (Text × Text) :=
  cell.references.find? fun reference => reference.1.isPrefixOf t

/-- From the left; the characters to skip belong to a reference that was read already. -/
def fillFrom (cell : Cell) : Nat → Text → Text
  | _, [] => []
  | skip + 1, _ :: rest => cell.fillFrom skip rest
  | 0, c :: rest =>
    match cell.reference? (c :: rest) with
    | none => c :: cell.fillFrom 0 rest
    | some reference => reference.2 ++ cell.fillFrom (reference.1.length - 1) rest

def fill (cell : Cell) (t : Text) : Text := cell.fillFrom 0 t

theorem reference?_append_dash (t u : Text) :
    cell.reference? (t ++ '-' :: u) = cell.reference? t := by
  have hos : '-' ∉ matrixOs.toList := by decide
  have hscala : '-' ∉ matrixScala.toList := by decide
  have hjava : '-' ∉ matrixJava.toList := by decide
  simp only [reference?, references, List.find?_cons, List.find?_nil,
    Text.isPrefixOf_append_sep hos, Text.isPrefixOf_append_sep hscala,
    Text.isPrefixOf_append_sep hjava]

theorem length_le_of_reference? {t : Text} {reference : Text × Text}
    (h : cell.reference? t = some reference) : reference.1.length ≤ t.length := by
  have hprefix := List.find?_some h
  exact (List.isPrefixOf_iff_prefix.mp hprefix).length_le

theorem fillFrom_append_dash {skip : Nat} {t : Text} (h : skip ≤ t.length) (u : Text) :
    cell.fillFrom skip (t ++ '-' :: u) = cell.fillFrom skip t ++ '-' :: cell.fill u := by
  induction t generalizing skip with
  | nil =>
    have hskip : skip = 0 := Nat.le_zero.mp h
    have hnone : cell.reference? ('-' :: u) = none := reference?_append_dash [] u
    subst hskip
    simp only [List.nil_append, fillFrom, hnone]
    rfl
  | cons c rest ih =>
    cases skip with
    | succ skip =>
      rw [List.cons_append, fillFrom, fillFrom]
      exact ih (Nat.le_of_succ_le_succ h)
    | zero =>
      have hreference : cell.reference? (c :: (rest ++ '-' :: u)) = cell.reference? (c :: rest) :=
        reference?_append_dash (c :: rest) u
      rw [List.cons_append, fillFrom, fillFrom, hreference]
      cases hfound : cell.reference? (c :: rest) with
      | none => simp only [ih (Nat.zero_le _), List.cons_append]
      | some reference =>
        have hlength := length_le_of_reference? hfound
        rw [List.length_cons] at hlength
        have hrest : reference.1.length - 1 ≤ rest.length := by omega
        simp only [ih hrest, List.append_assoc]

theorem fill_append_dash (t u : Text) :
    cell.fill (t ++ '-' :: u) = cell.fill t ++ '-' :: cell.fill u :=
  fillFrom_append_dash (Nat.zero_le _) u

/-! ## References and texts without them -/

theorem fillFrom_of_length_le {skip : Nat} {t : Text} (h : t.length ≤ skip) :
    cell.fillFrom skip t = [] := by
  induction t generalizing skip with
  | nil => rw [fillFrom]
  | cons c rest ih =>
    cases skip with
    | zero => cases h
    | succ skip =>
      rw [fillFrom]
      exact ih (Nat.le_of_succ_le_succ h)

theorem fill_of_reference? {t value : Text} (h : cell.reference? t = some (t, value))
    (hne : t ≠ []) : cell.fill t = value := by
  cases t with
  | nil => exact absurd rfl hne
  | cons c rest =>
    rw [fill, fillFrom, h]
    show value ++ cell.fillFrom ((c :: rest).length - 1) rest = value
    rw [fillFrom_of_length_le (by simp), List.append_nil]

theorem fill_matrixOs : cell.fill matrixOs = cell.os := by
  have hself : matrixOs.toList.isPrefixOf matrixOs.toList = true := by simp
  apply fill_of_reference? _ (by decide)
  simp only [reference?, references, List.find?_cons, hself]

theorem fill_matrixScala : cell.fill matrixScala = cell.scala := by
  have hos : matrixOs.toList.isPrefixOf matrixScala.toList = false := by decide
  have hself : matrixScala.toList.isPrefixOf matrixScala.toList = true := by simp
  apply fill_of_reference? _ (by decide)
  simp only [reference?, references, List.find?_cons, hos, hself]

theorem fill_matrixJava : cell.fill matrixJava = cell.java := by
  have hos : matrixOs.toList.isPrefixOf matrixJava.toList = false := by decide
  have hscala : matrixScala.toList.isPrefixOf matrixJava.toList = false := by decide
  have hself : matrixJava.toList.isPrefixOf matrixJava.toList = true := by simp
  apply fill_of_reference? _ (by decide)
  simp only [reference?, references, List.find?_cons, hos, hscala, hself]

/-- No reference occurs in the text. -/
def Constant (t : Text) : Prop :=
  ∀ reference ∈ [matrixOs, matrixScala, matrixJava], Text.occursIn reference t = false

instance (t : Text) : Decidable (Constant t) :=
  inferInstanceAs (Decidable (∀ reference ∈ [matrixOs, matrixScala, matrixJava], _))

theorem fill_of_constant {t : Text} (h : Constant t) : cell.fill t = t := by
  induction t with
  | nil => rw [fill, fillFrom]
  | cons c rest ih =>
    have hrest : Constant rest := by
      intro reference hreference
      have hoccurs := h reference hreference
      rw [Text.occursIn, Bool.or_eq_false_iff] at hoccurs
      exact hoccurs.2
    have hprefix : ∀ reference ∈ [matrixOs, matrixScala, matrixJava],
        reference.toList.isPrefixOf (c :: rest) = false := by
      intro reference hreference
      have hoccurs := h reference hreference
      rw [Text.occursIn, Bool.or_eq_false_iff] at hoccurs
      exact hoccurs.1
    have hnone : cell.reference? (c :: rest) = none := by
      simp only [reference?, references, List.find?_cons, List.find?_nil,
        hprefix matrixOs (by simp), hprefix matrixScala (by simp), hprefix matrixJava (by simp)]
    have hih := ih hrest
    rw [fill] at hih ⊢
    simp only [fillFrom, hnone, hih]

end Cell
end CiPipeline
