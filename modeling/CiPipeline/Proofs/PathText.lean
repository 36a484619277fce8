import CiPipeline.Proofs.Lines
import CiPipeline.Proofs.PathResolution

/-!
# CiPipeline.Proofs.PathText

What the text of a path says about the path.

* `Path.Clean`        — a text in which every name is a step down.
* `parts_below`       — the parts of two paths that are written with a slash between them.
* `toString_of_clean` — a clean text is the usual one of its parts.
* `parse_toString_relative` — legible parts are read back from their text.
* `resolve_below`     — behind an absolute path it leads down from where that path leads.
* `relative_append`   — the way from a location to what is under it is what it is under it by.
* `holdsNull_parse`   — a path has no null character that its text has not.
-/

namespace CiPipeline
namespace Path

/-- No name in the text is empty, `.` or `..`. -/
def Clean (t : String) : Prop :=
  ∀ piece ∈ Text.pieces '/' t, piece ≠ [] ∧ piece ≠ ['.'] ∧ piece ≠ ['.', '.']

instance (t : String) : Decidable (Clean t) := by
  unfold Clean
  infer_instance

/-! ## Parts -/

/-- The names in a text that are steps of a way. -/
def partsOf (t : Text) : List String :=
  ((Text.pieces '/' t).filter fun part => part != [] && part != ['.']).map String.ofList

theorem parse_parts (s : String) : (parse s).parts = partsOf s := rfl

theorem partsOf_append_slash (t u : Text) : partsOf (t ++ '/' :: u) = partsOf t ++ partsOf u := by
  rw [partsOf, Text.pieces_append_sep, List.filter_append, List.map_append]
  rfl

theorem holdsNull_parse {s : String} (h : '\x00' ∉ s.toList) : (parse s).holdsNull = false := by
  rw [holdsNull, List.any_eq_false]
  intro part hpart
  rw [parse_parts, partsOf, List.mem_map] at hpart
  obtain ⟨piece, hpiece, rfl⟩ := hpart
  rw [String.toList_ofList, List.contains_iff_mem]
  exact fun hnull => h (Text.mem_of_mem_pieces (List.mem_filter.mp hpiece).1 hnull)

theorem parts_below (r t : String) :
    (parse (r ++ "/" ++ t)).parts = (parse r).parts ++ (parse t).parts := by
  have htext : (r ++ "/" ++ t).toList = r.toList ++ '/' :: t.toList := by
    simp only [String.toList_append, List.append_assoc]
    rfl
  rw [parse_parts, htext, partsOf_append_slash, parse_parts, parse_parts]

theorem parts_of_clean {t : String} (h : Clean t) :
    (parse t).parts = (Text.pieces '/' t).map String.ofList := by
  have hall : ∀ piece ∈ Text.pieces '/' t, (piece != [] && piece != ['.']) = true := by
    intro piece hpiece
    simpa using ⟨(h piece hpiece).1, (h piece hpiece).2.1⟩
  rw [parse_parts, partsOf, List.filter_eq_self.mpr hall]

theorem down_of_clean {t : String} (h : Clean t) : ".." ∉ (parse t).parts := by
  rw [parts_of_clean h]
  intro hmem
  obtain ⟨piece, hpiece, heq⟩ := List.mem_map.mp hmem
  have hdots : piece = ['.', '.'] := by
    rw [← String.toList_ofList (l := piece), heq]
    rfl
  exact (h piece hpiece).2.2 hdots

theorem toList_toString_relative (part : String) (rest : List String) :
    (toString ⟨.relative, part :: rest⟩).toList =
      Text.joined ['/'] ((part :: rest).map String.toList) := by
  have hjoined : toString ⟨.relative, part :: rest⟩ = "/".intercalate (part :: rest) :=
    String.empty_append
  rw [hjoined, String.toList_intercalate]
  rfl

/-- Written out again, the parts of a clean text are that text. -/
theorem toString_of_clean {t : String} (h : Clean t) :
    toString ⟨.relative, (parse t).parts⟩ = t := by
  have hparts := parts_of_clean h
  have hne : (parse t).parts ≠ [] := by
    rw [hparts]
    simpa using Text.pieces_ne_nil '/' t
  obtain ⟨part, rest, hcase⟩ := List.exists_cons_of_ne_nil hne
  apply String.toList_injective
  rw [hcase, toList_toString_relative, ← hcase, hparts, List.map_map]
  have hid : String.toList ∘ String.ofList = id := by
    funext piece
    exact String.toList_ofList
  rw [hid, List.map_id]
  exact Text.joined_pieces '/' t

/-! ## Anchors -/

/-- The first slash alone decides, however many follow it. -/
theorem anchorOf_ne_relative_iff (t : Text) : anchorOf t ≠ .relative ↔ t.head? = some '/' := by
  unfold anchorOf
  split
  case h_4 hother =>
    have hhead : t.head? ≠ some '/' := by
      intro h
      obtain ⟨rest, hrest⟩ := List.head?_eq_some_iff.mp h
      exact hother rest hrest
    simp [hhead]
  all_goals simp

theorem isAbsolute_iff (s : String) :
    (parse s).isAbsolute = true ↔ s.toList.head? = some '/' := by
  rw [← anchorOf_ne_relative_iff]
  exact bne_iff_ne

theorem isAbsolute_append {r : String} (h : (parse r).isAbsolute = true) (s : String) :
    (parse (r ++ s)).isAbsolute = true := by
  rw [isAbsolute_iff] at h ⊢
  rw [String.toList_append, List.head?_append, h]
  rfl

/-! ## Parts written out -/

/-- A name that can be told between two slashes, and is a step of a way. -/
def Legible (name : String) : Prop := name ≠ "" ∧ name ≠ "." ∧ '/' ∉ name.toList

theorem legible_of_parse {s part : String} (h : part ∈ (parse s).parts) : Legible part := by
  rw [parse_parts, partsOf, List.mem_map] at h
  obtain ⟨piece, hpiece, rfl⟩ := h
  obtain ⟨hmem, hkept⟩ := List.mem_filter.mp hpiece
  simp only [Bool.and_eq_true, bne_iff_ne] at hkept
  refine ⟨?_, ?_, ?_⟩
  · intro h
    exact hkept.1 (by rw [← String.toList_ofList (l := piece), h]; rfl)
  · intro h
    exact hkept.2 (by rw [← String.toList_ofList (l := piece), h]; rfl)
  · rw [String.toList_ofList]
    exact Text.sep_notMem_of_mem_pieces hmem

theorem partsOf_joined {part : String} {rest : List String}
    (h : ∀ name ∈ part :: rest, Legible name) :
    partsOf (Text.joined ['/'] ((part :: rest).map String.toList)) = part :: rest := by
  have hslash : ∀ piece ∈ (part :: rest).map String.toList, '/' ∉ piece := by
    intro piece hpiece
    obtain ⟨name, hname, rfl⟩ := List.mem_map.mp hpiece
    exact (h name hname).2.2
  have hkept : ∀ piece ∈ (part :: rest).map String.toList,
      (piece != [] && piece != ['.']) = true := by
    intro piece hpiece
    obtain ⟨name, hname, rfl⟩ := List.mem_map.mp hpiece
    have hempty : name.toList ≠ "".toList := fun h' => (h name hname).1 (String.toList_inj.mp h')
    have hdot : name.toList ≠ ".".toList := fun h' => (h name hname).2.1 (String.toList_inj.mp h')
    rw [Bool.and_eq_true, bne_iff_ne, bne_iff_ne]
    exact ⟨hempty, hdot⟩
  have hid : String.ofList ∘ String.toList = id := by
    funext name
    exact String.ofList_toList
  rw [partsOf, Text.pieces_joined_self (by simp) hslash, List.filter_eq_self.mpr hkept,
    List.map_map, hid, List.map_id]

theorem head?_joined {part : String} (h : Legible part) (rest : List String) :
    (Text.joined ['/'] ((part :: rest).map String.toList)).head? ≠ some '/' := by
  rw [List.map_cons, Text.joined_cons]
  cases hpart : part.toList with
  | nil => exact absurd (String.toList_inj.mp hpart) h.1
  | cons c letters =>
    rintro ⟨rfl⟩
    exact h.2.2 (hpart ▸ List.mem_cons_self)

/-- Parts that are written out are read as they were. -/
theorem parse_toString_relative {parts : List String} (h : ∀ part ∈ parts, Legible part) :
    parse (toString ⟨.relative, parts⟩) = ⟨.relative, parts⟩ := by
  cases parts with
  | nil => rfl
  | cons part rest =>
    have hhead := head?_joined (h part List.mem_cons_self) rest
    rw [Ne, ← anchorOf_ne_relative_iff, Classical.not_not] at hhead
    rw [parse, Path.mk.injEq, toList_toString_relative]
    exact ⟨hhead, partsOf_joined h⟩

/-! ## Ways down -/

/-- A clean text behind an absolute path leads down from where that path leads, whatever ways up the
path itself takes. -/
theorem resolve_below {r t : String} (hr : (parse r).isAbsolute = true) (ht : Clean t)
    (current base : Location) :
    (parse (r ++ "/" ++ t)).resolve current = (parse r).resolve base ++ (parse t).parts := by
  have habsolute : (parse (r ++ "/" ++ t)).isAbsolute = true := by
    rw [String.append_assoc]
    exact isAbsolute_append hr _
  rw [resolve, resolve, if_pos habsolute, if_pos hr, parts_below]
  exact cancel_append_of_down _ (down_of_clean ht)

theorem take_sharedLength (start goal : Location) :
    start.take (sharedLength start goal) = goal.take (sharedLength start goal) := by
  induction start generalizing goal with
  | nil => rfl
  | cons name start ih =>
    cases goal with
    | nil => rfl
    | cons other goal =>
      rw [sharedLength]
      split
      · rename_i hsame
        rw [List.take_succ_cons, List.take_succ_cons, hsame, ih]
      · rfl

theorem le_sharedLength {common start goal : Location} (hstart : common <+: start)
    (hgoal : common <+: goal) : common.length ≤ sharedLength start goal := by
  obtain ⟨back, rfl⟩ := hstart
  obtain ⟨down, rfl⟩ := hgoal
  induction common with
  | nil => exact Nat.zero_le _
  | cons name common ih =>
    rw [List.cons_append, List.cons_append, sharedLength, if_pos rfl, List.length_cons]
    exact Nat.succ_le_succ ih

theorem sharedLength_le (start goal : Location) : sharedLength start goal ≤ start.length := by
  induction start generalizing goal with
  | nil => exact Nat.le_refl 0
  | cons name start ih =>
    cases goal with
    | nil => exact Nat.zero_le _
    | cons other goal =>
      rw [sharedLength]
      split
      · exact Nat.succ_le_succ (ih goal)
      · exact Nat.zero_le _

theorem sharedLength_append (start parts : Location) :
    sharedLength start (start ++ parts) = start.length :=
  Nat.le_antisymm (sharedLength_le _ _)
    (le_sharedLength (List.prefix_refl start) (List.prefix_append start parts))

theorem relative_append (start parts : Location) :
    relative start (start ++ parts) = ⟨.relative, parts⟩ := by
  simp [relative, sharedLength_append]

end Path
end CiPipeline
