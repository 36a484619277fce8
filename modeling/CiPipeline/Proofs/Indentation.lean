import CiPipeline.Proofs.Lines

/-!
# CiPipeline.Proofs.Indentation

Indentation acts line by line.

* `lines_indent`          — the lines of an indented text are its lines, each one indented.
* `indent_indent`         — levels add up.
* `indent_append_newline` — a newline between two texts stays where it is.
* `indent_joined`         — blocks with an empty line between them are indented one by one.
-/

namespace CiPipeline
namespace Text

/-- A line of spaces only becomes empty; any other one moves `n` columns to the right. -/
def indentLine (n : Nat) (line : Text) : Text :=
  if blank line then [] else spaces n ++ line

theorem indentLine_of_blank {line : Text} (h : blank line = true) (n : Nat) :
    indentLine n line = [] := by
  simp [indentLine, h]

theorem indentLine_of_not_blank {line : Text} (h : blank line = false) (n : Nat) :
    indentLine n line = spaces n ++ line := by
  simp [indentLine, h]

theorem indentLine_spaces_append (m n : Nat) (line : Text) :
    indentLine m (spaces n ++ line) = indentLine (m + n) line := by
  cases h : blank line with
  | true =>
    rw [indentLine_of_blank h, indentLine_of_blank (by rw [blank_spaces_append, h])]
  | false =>
    rw [indentLine_of_not_blank h, indentLine_of_not_blank (by rw [blank_spaces_append, h])]
    simp [spaces, ← List.append_assoc, List.replicate_append_replicate]

theorem indentLine_indentLine (m n : Nat) (line : Text) :
    indentLine m (indentLine n line) = indentLine (m + n) line := by
  cases h : blank line with
  | true => rw [indentLine_of_blank h, indentLine_of_blank h, indentLine_of_blank blank_nil]
  | false => rw [indentLine_of_not_blank h, indentLine_spaces_append]

/-! ## From characters to lines -/

/-- What stands after the last newline, `s` so far, goes on with the first line of `t`. -/
theorem lines_append_shifted (n : Nat) (t : Text) :
    ∀ {s line : Text} {more : List Text}, '\n' ∉ s → lines t = line :: more →
      lines (s ++ t.flatMap fun c => if c = '\n' then '\n' :: spaces n else [c]) =
        (s ++ line) :: more.map (spaces n ++ ·) := by
  induction t with
  | nil =>
    intro s line more hs h
    rw [show lines [] = [[]] from rfl, List.cons.injEq] at h
    obtain ⟨rfl, rfl⟩ := h
    simpa using lines_eq_singleton hs
  | cons c rest ih =>
    intro s line more hs h
    obtain ⟨first, others, hr⟩ := exists_lines rest
    by_cases hc : c = '\n'
    · subst hc
      rw [lines_newline, hr, List.cons.injEq] at h
      obtain ⟨rfl, rfl⟩ := h
      rw [List.flatMap_cons, if_pos rfl, List.cons_append, lines_append_newline,
        lines_eq_singleton hs, ih (newline_notMem_spaces n) hr]
      simp
    · rw [lines_cons hc hr, List.cons.injEq] at h
      obtain ⟨rfl, rfl⟩ := h
      have hsc : '\n' ∉ s ++ [c] := by simp [hs, Ne.symm hc]
      have hi := ih hsc hr
      rw [List.append_assoc] at hi
      rw [List.flatMap_cons, if_neg hc, hi, List.append_assoc]
      rfl

theorem lines_shift (n : Nat) (t : Text) : lines (shift n t) = (lines t).map (spaces n ++ ·) := by
  obtain ⟨line, more, h⟩ := exists_lines t
  rw [shift, lines_append_shifted n t (newline_notMem_spaces n) h, h]
  rfl

/-- The first line as `clearFrom` leaves it, told what it has read of that line. -/
def clearedFirst : Option Nat → Text → Text
  | some n, line => indentLine 0 (spaces n ++ line)
  | none, line => line

theorem clearedFirst_nil (state : Option Nat) : clearedFirst state [] = [] := by
  cases state with
  | none => rfl
  | some n => exact indentLine_of_blank (by rw [blank_spaces_append]; rfl) 0

theorem lines_clearFrom (t : Text) :
    ∀ (state : Option Nat) {line : Text} {more : List Text}, lines t = line :: more →
      lines (clearFrom state t) = clearedFirst state line :: more.map (indentLine 0) := by
  induction t with
  | nil =>
    intro state line more h
    rw [show lines [] = [[]] from rfl, List.cons.injEq] at h
    obtain ⟨rfl, rfl⟩ := h
    rw [clearedFirst_nil]
    cases state <;> rfl
  | cons c rest ih =>
    intro state line more h
    obtain ⟨first, others, hr⟩ := exists_lines rest
    by_cases hc : c = '\n'
    · subst hc
      rw [lines_newline, hr, List.cons.injEq] at h
      obtain ⟨rfl, rfl⟩ := h
      have hstep : clearFrom state ('\n' :: rest) = '\n' :: clearFrom (some 0) rest := by
        cases state <;> simp [clearFrom]
      rw [hstep, lines_newline, ih (some 0) hr, clearedFirst_nil]
      rfl
    · rw [lines_cons hc hr, List.cons.injEq] at h
      obtain ⟨rfl, rfl⟩ := h
      cases state with
      | none => rw [clearFrom, if_neg hc, lines_cons hc (ih none hr)]; rfl
      | some n =>
        by_cases hsp : c = ' '
        · subst hsp
          rw [clearFrom, if_pos rfl, ih (some (n + 1)) hr]
          simp [clearedFirst, spaces, List.replicate_succ', List.append_assoc]
        · have hnb : blank (spaces n ++ c :: first) = false := by
            rw [blank_spaces_append]
            simp [blank, hsp]
          rw [clearFrom, if_neg hsp, if_neg hc,
            lines_append (newline_notMem_spaces n) (lines_cons hc (ih none hr)), clearedFirst,
            indentLine_of_not_blank hnb]
          rfl

/-- What comes after a line has begun is kept up to the end of the line. -/
theorem clearFrom_none_append {t : Text} (ht : '\n' ∉ t) (u : Text) :
    clearFrom none (t ++ u) = t ++ clearFrom none u := by
  induction t with
  | nil => rfl
  | cons c t ih =>
    rw [List.mem_cons, not_or] at ht
    rw [List.cons_append, clearFrom, if_neg (Ne.symm ht.1), ih ht.2, List.cons_append]

theorem lines_clearBlank (t : Text) : lines (clearBlank t) = (lines t).map (indentLine 0) := by
  obtain ⟨line, more, h⟩ := exists_lines t
  rw [clearBlank, lines_clearFrom t (some 0) h, h]
  rfl

theorem lines_indent (level : Int) (t : Text) :
    lines (indent level t) = (lines t).map (indentLine (columns level)) := by
  rw [indent, lines_clearBlank, lines_shift, List.map_map]
  congr 1
  funext line
  exact (indentLine_spaces_append 0 _ line).trans (by rw [Nat.zero_add])

/-! ## The laws of documents -/

@[simp] theorem indent_nil (level : Int) : indent level [] = [] :=
  lines_injective (by rw [lines_indent]; rfl)

theorem indent_indent (a b : Int) (t : Text) :
    indent b (indent a t) = indent (max a 0 + max b 0) t := by
  have hcolumns : columns (max a 0 + max b 0) = columns b + columns a := by
    simp only [columns]
    omega
  apply lines_injective
  rw [lines_indent, lines_indent, lines_indent, List.map_map, hcolumns]
  congr 1
  funext line
  exact indentLine_indentLine _ _ line

theorem indent_append_newline (level : Int) (t u : Text) :
    indent level (t ++ '\n' :: u) = indent level t ++ '\n' :: indent level u := by
  apply lines_injective
  rw [lines_append_newline, lines_indent, lines_append_newline, lines_indent, lines_indent,
    List.map_append]

theorem clearBlank_append_newline (t u : Text) :
    clearBlank (t ++ '\n' :: u) = clearBlank t ++ '\n' :: clearBlank u := by
  apply lines_injective
  rw [lines_append_newline, lines_clearBlank, lines_append_newline, lines_clearBlank,
    lines_clearBlank, List.map_append]

theorem indent_joined (level : Int) (texts : List Text) :
    indent level (joined ['\n', '\n'] texts) = joined ['\n', '\n'] (texts.map (indent level)) := by
  cases texts with
  | nil => exact indent_nil level
  | cons first rest =>
    refine map_joined (fun t u => ?_) (List.cons_ne_nil first rest)
    rw [append_separator, indent_append_newline, indent_append_newline, indent_nil,
      ← append_separator]

end Text
end CiPipeline
