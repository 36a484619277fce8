import CiPipeline.Proofs.WrittenForm

/-!
# CiPipeline.Proofs.LiteralBlock

Values of several lines, as they are read from the literal block that they are written as.

* `reaches`        — a line that may stand in a block of so many columns.
* `literal?`       — the lines of a block without an indentation indicator: its first line that is
                     not blank says how far all are indented.
* `literal?_block` — a block is read as the value itself would be.
* `literal?_write` — the lines come back if the first that is not blank starts at the margin, and
                     else are cut or refused.
* `indentedScript_literal` — scripts that do not come back.
-/

namespace CiPipeline

namespace Text

theorem blank_indentLine (n : Nat) (line : Text) : blank (indentLine n line) = blank line := by
  cases h : blank line with
  | true => rw [indentLine_of_blank h, blank_nil]
  | false => rw [indentLine_of_not_blank h, blank_spaces_append, h]

theorem depth_indentLine {line : Text} (h : blank line = false) (n : Nat) :
    depth (indentLine n line) = n + depth line := by
  rw [indentLine_of_not_blank h, depth_spaces_append]

end Text

namespace Scalar

open Text

/-- Blank lines need not be indented. -/
def reaches (columns : Nat) (line : Text) : Bool := blank line || decide (columns ≤ depth line)

/-- The lines of a literal block that is given with its head. -/
def literal? : Text → Option (List Text)
  | '|' :: '\n' :: block =>
    match (lines block).find? (!blank ·) with
    | none => none
    | some first =>
      if (lines block).all (reaches (depth first)) then
        some ((lines block).map (List.drop (depth first)))
      else none
  | _ => none

variable {t first : Text}

theorem reaches_indentLine (n columns : Nat) (line : Text) :
    reaches (n + columns) (indentLine n line) = reaches columns line := by
  cases h : blank line with
  | true => simp [reaches, blank_indentLine, h]
  | false => simp [reaches, blank_indentLine, h, depth_indentLine h]

theorem find?_indent (level : Int) (h : (lines t).find? (!blank ·) = some first) :
    (lines (indent level t)).find? (!blank ·) = some (indentLine (columns level) first) := by
  have hsame : ((fun line => !blank line) ∘ indentLine (columns level)) = (!blank ·) := by
    funext line
    simp [blank_indentLine]
  rw [lines_indent, List.find?_map, hsame, h, Option.map_some]

theorem all_indent (level : Int) (n : Nat) (t : Text) :
    (lines (indent level t)).all (reaches (columns level + n)) = (lines t).all (reaches n) := by
  rw [lines_indent, List.all_map]
  congr 1
  funext line
  exact reaches_indentLine _ n line

theorem map_drop_indent (level : Int) (n : Nat) (t : Text) :
    (lines (indent level t)).map (List.drop (columns level + n)) =
      (lines (clearBlank t)).map (List.drop n) := by
  rw [lines_indent, lines_clearBlank, List.map_map, List.map_map]
  congr 1
  funext line
  rw [Function.comp_apply, Function.comp_apply, ← List.drop_drop, drop_indentLine]

/-- The two columns of the block are told from the spaces of the value only by the first line. -/
theorem literal?_block (h : (lines t).find? (!blank ·) = some first) :
    literal? (block t) =
      if (lines t).all (reaches (depth first)) then
        some ((lines (clearBlank t)).map (List.drop (depth first)))
      else none := by
  have hsolid : blank first = false := by simpa using List.find?_some h
  rw [block, literal?, find?_indent 1 h]
  simp only [depth_indentLine hsolid, all_indent, map_drop_indent]

/-- Nothing is cut off a line that is not blank only if nothing is to be cut off any line. -/
theorem drop_eq_iff {columns : Nat} (hfirst : first ∈ lines t) (hsolid : blank first = false) :
    (lines (clearBlank t)).map (List.drop columns) = lines (clearBlank t) ↔ columns = 0 := by
  constructor
  · intro h
    have hmem : first ∈ lines (clearBlank t) := by
      rw [lines_clearBlank, List.mem_map]
      exact ⟨first, hfirst, by rw [indentLine_of_not_blank hsolid]; rfl⟩
    have hdrop : first.drop columns = first :=
      List.map_inj_left.mp (h.trans (List.map_id _).symm) first hmem
    have hlength := congrArg List.length hdrop
    have hne : 0 < first.length := by
      cases first with
      | nil => cases hsolid
      | cons c rest => simp
    rw [List.length_drop] at hlength
    omega
  · rintro rfl
    exact List.map_id _

/-- A value of several lines comes back from its block only if its first line that is not blank has
no space in front. Else every line loses what that one is indented by, and with one that is not
indented as far there is no reading. -/
theorem literal?_write (hnewline : '\n' ∈ t) (hsolid : ∃ line ∈ lines t, blank line = false) :
    ∃ first, (lines t).find? (!blank ·) = some first ∧
      (literal? (write t) = some (lines (clearBlank t)) ↔ depth first = 0) ∧
      literal? (write t) =
        if (lines t).all (reaches (depth first)) then
          some ((lines (clearBlank t)).map (List.drop (depth first)))
          else none := by
  obtain ⟨line, hline, hblank⟩ := hsolid
  obtain ⟨first, hfirst⟩ : ∃ first, (lines t).find? (!blank ·) = some first :=
    Option.isSome_iff_exists.mp (List.find?_isSome.mpr ⟨line, hline, by simp [hblank]⟩)
  have hread := literal?_block hfirst
  rw [← write_of_newline hnewline] at hread
  refine ⟨first, hfirst, ?_, hread⟩
  have hcut : (lines (clearBlank t)).map (List.drop (depth first)) = lines (clearBlank t) ↔
      depth first = 0 :=
    drop_eq_iff (List.mem_of_find?_eq_some hfirst) (by simpa using List.find?_some hfirst)
  rw [hread]
  constructor
  · intro h
    split at h
    · exact hcut.mp (Option.some_inj.mp h)
    · cases h
  · intro h
    have hall : (lines t).all (reaches (depth first)) = true := by simp [h, reaches]
    rw [if_pos hall, hcut.mpr h]

/-- Blank lines around and between, and a first line at the margin. -/
theorem marginScript_literal : '\n' ∈ "\n  \nif x\n\n  y".toList ∧
    (∃ line ∈ lines "\n  \nif x\n\n  y".toList, blank line = false) ∧
    literal? (write "\n  \nif x\n\n  y") =
      some ["".toList, "".toList, "if x".toList, "".toList, "  y".toList] := by
  have hnewline : '\n' ∈ "\n  \nif x\n\n  y".toList := by decide
  have hsolid : ∃ line ∈ lines "\n  \nif x\n\n  y".toList, blank line = false := by decide
  obtain ⟨first, hfirst, hread, -⟩ := literal?_write hnewline hsolid
  have hlines : lines (clearBlank "\n  \nif x\n\n  y") =
      ["".toList, "".toList, "if x".toList, "".toList, "  y".toList] := by decide
  cases hfirst
  exact ⟨hnewline, hsolid, hlines ▸ hread.mpr rfl⟩

/-- A first line that is indented: the block of the one script is refused, and that of the other is
read as a script without the indentation. -/
theorem indentedScript_literal : '\n' ∈ "  if x\nfi".toList ∧
    (∃ line ∈ lines "  if x\nfi".toList, blank line = false) ∧
    literal? (write "  if x\nfi") = none ∧
    literal? (write "  if x\n  fi") = some ["if x".toList, "fi".toList] ∧
    lines (clearBlank "  if x\n  fi") = ["  if x".toList, "  fi".toList] := by
  decide

end Scalar
end CiPipeline
