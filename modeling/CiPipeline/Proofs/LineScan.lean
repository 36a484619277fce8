import CiPipeline.Proofs.LineEnds
import CiPipeline.Proofs.Lines
import Mathlib.Data.List.Induction

/-!
# CiPipeline.Proofs.LineScan

The lines of a text found in one pass over it, whatever line ends a checkout left.

* `scan`             — the pieces between the line ends, from left to right.
* `contentLines`     — the same without the piece after a final line end.
* `contentLines_eq`  — these are the lines of the text with its line ends made alike.
* `normalLines_eq_iff` — so texts that are made alike agree exactly when they agree line by line.
-/

namespace CiPipeline
namespace Text

/-- A carriage return with a newline right after it is one line end, and either of them alone is
one. No other character is. -/
def scan : Text → List Text
  | [] => [[]]
  | '\r' :: '\n' :: rest => [] :: scan rest
  | c :: rest =>
    if c = '\r' ∨ c = '\n' then [] :: scan rest
    else match scan rest with
      | [] => [[c]]
      | piece :: more => (c :: piece) :: more

/-- An empty text has one line, an empty one. -/
def contentLines (t : Text) : List Text :=
  if (scan t).getLast? = some [] ∧ (scan t).length ≠ 1 then (scan t).dropLast else scan t

/-! ## One pass -/

theorem plainEnds_pair (rest : Text) : plainEnds ('\r' :: '\n' :: rest) = '\n' :: plainEnds rest :=
  rfl

theorem plainEnds_cons {c : Char} {rest : Text}
    (hpair : ∀ more, c = '\r' → rest = '\n' :: more → False) :
    plainEnds (c :: rest) = (if c = '\r' then '\n' else c) :: plainEnds rest := by
  rw [plainEnds, joinPairs]
  · rfl
  · exact hpair

theorem scan_eq (t : Text) : scan t = lines (plainEnds t) := by
  fun_induction scan t with
  | case1 => rfl
  | case2 rest ih => rw [plainEnds_pair, lines_newline, ih]
  | case3 c rest hpair hend ih =>
    have hnewline : (if c = '\r' then '\n' else c) = '\n' := by
      rcases hend with rfl | rfl <;> rfl
    rw [plainEnds_cons hpair, hnewline, lines_newline, ih]
  | case4 c rest hpair hend hnil ih =>
    rw [hnil] at ih
    exact absurd ih.symm (pieces_ne_nil '\n' _)
  | case5 c rest hpair hend piece more hpieces ih =>
    rw [not_or] at hend
    rw [hpieces] at ih
    rw [plainEnds_cons hpair, if_neg hend.1, lines_cons hend.2 ih.symm]

/-! ## The final line end -/

theorem lines_dropFinal (t : Text) :
    lines (dropFinal t) =
      if (lines t).getLast? = some [] ∧ (lines t).length ≠ 1 then (lines t).dropLast
      else lines t := by
  by_cases hfinal : t.getLast? = some '\n'
  · obtain ⟨u, rfl⟩ := List.getLast?_eq_some_iff.mp hfinal
    have hlines : lines (u ++ ['\n']) = lines u ++ [[]] := lines_append_newline u []
    have hne : lines u ≠ [] := pieces_ne_nil '\n' u
    have hlast : (lines (u ++ ['\n'])).getLast? = some [] ∧ (lines (u ++ ['\n'])).length ≠ 1 := by
      rw [hlines]
      simpa using hne
    rw [dropFinal, if_pos hfinal, if_pos hlast, hlines, List.dropLast_concat, List.dropLast_concat]
  · rw [dropFinal, if_neg hfinal, if_neg]
    rintro ⟨hlast, hlength⟩
    obtain ⟨line, more, hlines⟩ := exists_lines t
    rw [hlines] at hlast hlength
    -- an empty last line that is not the only one has a newline before it
    cases more using List.reverseRecOn with
    | nil => exact hlength rfl
    | append_singleton more last =>
      rw [← List.cons_append, List.getLast?_concat] at hlast
      obtain rfl := Option.some.inj hlast
      have htext : t = line ++ more.flatMap ('\n' :: ·) ++ ['\n'] := by
        rw [← joined_lines t, hlines, joined_cons, List.flatMap_append, List.append_assoc]
        rfl
      rw [htext, List.getLast?_concat] at hfinal
      exact hfinal rfl

theorem contentLines_eq (t : Text) : contentLines t = lines (normalLines t) := by
  rw [normalLines, lines_dropFinal, ← scan_eq]
  rfl

/-- Texts are compared by their lines, whatever ends the lines. -/
theorem normalLines_eq_iff {t u : Text} :
    normalLines t = normalLines u ↔ contentLines t = contentLines u := by
  rw [contentLines_eq, contentLines_eq]
  exact ⟨congrArg lines, lines_injective⟩

/-- A lone carriage return and the pair are line ends, a final one adds no line, U+2028 is none. -/
example : contentLines "a\r\nb\r\u2028c\n\r\n" =
    ["a", "b", "\u2028c", ""].map String.toList := by decide

end Text
end CiPipeline
