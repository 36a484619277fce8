import CiPipeline.Proofs.WrittenForm

/-!
# CiPipeline.Proofs.LinePattern

Indentation as a search through the whole text: spaces in front of it and behind every newline, and
then the matches of a pattern taken out.

* `Pattern.lengths`  — the matches of a pattern at a place, in the order in which they are tried.
* `Pattern.erased`   — a text without the matches that a search from left to right comes upon.
* `Pattern.lengths_line` — where a line starts, all of it matches if it is blank, and nothing else.
* `erased_blankLine` — so the search empties the blank lines one by one and leaves all others.
* `indent_linewise`  — indentation acts line by line, levels add up, and the spaces of blank lines
  are all that is lost.
-/

namespace CiPipeline

inductive Pattern.Piece where
  /-- The beginning of the text, or a place behind a newline. -/
  | lineStart
  /-- The end of the text, or a place before a newline. -/
  | lineEnd
  /-- At least one character of a class, and as many as the pieces behind it leave to it. -/
  | run (member : Char → Bool)

abbrev Pattern := List Pattern.Piece

namespace Pattern

/-- The lengths of the runs of members at the front, the longest first. -/
def runs (member : Char → Bool) : Text → List Nat
  | [] => []
  | c :: rest => if member c then (runs member rest).map (· + 1) ++ [1] else []

/-- Nothing of the same line stands on the side of a place where `neighbour` is. -/
def atEdge (neighbour : Option Char) : Bool := neighbour.all (· == '\n')

/-- The lengths of the matches at a place, as they are come upon by going back to the last choice of
a run each time. `behind` is the character before the place. -/
def lengths : Pattern → Option Char → Text → List Nat
  | [], _, _ => [0]
  | .lineStart :: more, behind, rest => if atEdge behind then lengths more behind rest else []
  | .lineEnd :: more, behind, rest => if atEdge rest[0]? then lengths more behind rest else []
  | .run member :: more, behind, rest =>
    (runs member rest).flatMap fun n =>
      (lengths more ((rest.take n).getLast?.or behind) (rest.drop n)).map (n + ·)

/-- Reads on from a place whose next `skipped` characters belong to a match. -/
def erasedFrom (pattern : Pattern) : Nat → Option Char → Text → Text
  | _, _, [] => []
  | skipped + 1, _, c :: rest => erasedFrom pattern skipped (some c) rest
  | 0, behind, c :: rest =>
    match lengths pattern behind (c :: rest) with
    | (n + 1) :: _ => erasedFrom pattern n (some c) rest
    | _ => c :: erasedFrom pattern 0 (some c) rest

/-- From left to right, the first match that is found at a place is taken out, and the search goes on
behind it. -/
def erased (pattern : Pattern) (t : Text) : Text := erasedFrom pattern 0 none t

/-- A line of spaces, one at least. -/
def blankLine : Pattern := [.lineStart, .run (· == ' '), .lineEnd]

open Text

variable {behind : Option Char} {line rest : Text}

theorem atEdge_of_ne {c : Char} (hc : c ≠ '\n') : atEdge (some c) = false := by
  simpa [atEdge] using hc

theorem atEdge_of_endsLine (hrest : EndsLine rest) : atEdge rest[0]? = true := by
  rcases hrest with rfl | ⟨more, rfl⟩ <;> rfl

/-! ## Matches -/

/-- Of the runs of spaces in front of a line, only one that is the whole line has the end of the line
behind it: any shorter one has a space there. -/
theorem runs_line (hline : '\n' ∉ line) (hrest : EndsLine rest) :
    (runs (· == ' ') (line ++ rest)).filter (fun n => atEdge (line ++ rest)[n]?) =
      if blank line ∧ line ≠ [] then [line.length] else [] := by
  induction line with
  | nil => rcases hrest with rfl | ⟨more, rfl⟩ <;> rfl
  | cons c line ih =>
    rw [List.mem_cons, not_or] at hline
    by_cases hc : c = ' '
    · subst hc
      have hlonger : ((runs (· == ' ') (line ++ rest)).map (· + 1)).filter
            (fun n => atEdge (' ' :: line ++ rest)[n]?) =
          (if blank line ∧ line ≠ [] then [line.length] else []).map (· + 1) := by
        rw [List.filter_map, ← ih hline.2]
        rfl
      have hone : [1].filter (fun n => atEdge (' ' :: line ++ rest)[n]?) =
          if line = [] then [1] else [] := by
        cases line with
        | nil => simp [atEdge_of_endsLine hrest]
        | cons d line =>
          have hd : d ≠ '\n' := fun h => hline.2 (h ▸ List.mem_cons_self)
          simp [atEdge_of_ne hd]
      have hruns : runs (· == ' ') (' ' :: line ++ rest) =
          (runs (· == ' ') (line ++ rest)).map (· + 1) ++ [1] := rfl
      rw [hruns, List.filter_append, hlonger, hone]
      -- the run of a single space counts where it is the last character of the line
      cases line with
      | nil => rfl
      | cons d line =>
        have hb : blank (' ' :: d :: line) = blank (d :: line) := rfl
        simp [hb, apply_ite]
    · simp [runs, blank, hc]

theorem lengths_blankLine (hbehind : atEdge behind = true) (t : Text) :
    lengths blankLine behind t = (runs (· == ' ') t).filter fun n => atEdge t[n]? := by
  rw [blankLine, lengths, if_pos hbehind, lengths]
  induction runs (· == ' ') t with
  | nil => rfl
  | cons n more ih =>
    rw [List.flatMap_cons, ih, List.filter_cons]
    by_cases hn : atEdge t[n]? = true <;> simp [lengths, hn]

/-- Where a line starts, the whole line matches if it is blank, and nothing else does. -/
theorem lengths_line (hbehind : atEdge behind = true) (hline : '\n' ∉ line)
    (hrest : EndsLine rest) :
    lengths blankLine behind (line ++ rest) =
      if blank line ∧ line ≠ [] then [line.length] else [] := by
  rw [lengths_blankLine hbehind, runs_line hline hrest]

theorem lengths_inside (hbehind : atEdge behind = false) (t : Text) :
    lengths blankLine behind t = [] := by
  rw [blankLine, lengths, hbehind]
  rfl

/-! ## The search -/

theorem erasedFrom_of_nil {pattern : Pattern} {c : Char}
    (h : lengths pattern behind (c :: rest) = []) :
    erasedFrom pattern 0 behind (c :: rest) = c :: erasedFrom pattern 0 (some c) rest := by
  rw [erasedFrom, h]

theorem erasedFrom_newline (behind : Option Char) (rest : Text) :
    erasedFrom blankLine 0 behind ('\n' :: rest) =
      '\n' :: erasedFrom blankLine 0 (some '\n') rest := by
  apply erasedFrom_of_nil
  cases hbehind : atEdge behind with
  | true => exact lengths_line hbehind List.not_mem_nil (.inr ⟨rest, rfl⟩)
  | false => exact lengths_inside hbehind _

/-- At the end of a line nothing depends on what the line was. -/
theorem erasedFrom_lineEnd (hrest : EndsLine rest) (behind : Option Char) :
    erasedFrom blankLine 0 behind rest = erasedFrom blankLine 0 none rest := by
  rcases hrest with rfl | ⟨more, rfl⟩
  · rfl
  · rw [erasedFrom_newline, erasedFrom_newline]

theorem erasedFrom_skipped (hrest : EndsLine rest) (line : Text) (behind : Option Char) :
    erasedFrom blankLine line.length behind (line ++ rest) = erasedFrom blankLine 0 none rest := by
  induction line generalizing behind with
  | nil => exact erasedFrom_lineEnd hrest behind
  | cons c line ih => exact ih (some c)

theorem erasedFrom_inside (hrest : EndsLine rest) (hbehind : atEdge behind = false)
    (hline : '\n' ∉ line) :
    erasedFrom blankLine 0 behind (line ++ rest) = line ++ erasedFrom blankLine 0 none rest := by
  induction line generalizing behind with
  | nil => exact erasedFrom_lineEnd hrest behind
  | cons c line ih =>
    rw [List.mem_cons, not_or] at hline
    rw [List.cons_append, erasedFrom_of_nil (lengths_inside hbehind _),
      ih (atEdge_of_ne (Ne.symm hline.1)) hline.2]
    rfl

/-- One line: a blank one is a match, any other is read over to its end. -/
theorem erasedFrom_line (hbehind : atEdge behind = true) (hline : '\n' ∉ line)
    (hrest : EndsLine rest) :
    erasedFrom blankLine 0 behind (line ++ rest) =
      indentLine 0 line ++ erasedFrom blankLine 0 none rest := by
  cases line with
  | nil => exact erasedFrom_lineEnd hrest behind
  | cons c line =>
    have hlengths := lengths_line hbehind hline hrest
    cases hb : blank (c :: line) with
    | true =>
      rw [if_pos ⟨hb, by simp⟩] at hlengths
      rw [indentLine_of_blank hb, List.cons_append, erasedFrom, ← List.cons_append, hlengths]
      exact erasedFrom_skipped hrest line (some c)
    | false =>
      rw [if_neg (by simp [hb]), List.cons_append] at hlengths
      rw [List.mem_cons, not_or] at hline
      rw [indentLine_of_not_blank hb, List.cons_append, erasedFrom_of_nil hlengths,
        erasedFrom_inside hrest (atEdge_of_ne (Ne.symm hline.1)) hline.2]
      rfl

theorem erasedFrom_joined (hbehind : atEdge behind = true) {texts : List Text}
    (htexts : ∀ t ∈ line :: texts, '\n' ∉ t) :
    erasedFrom blankLine 0 behind (joined ['\n'] (line :: texts)) =
      joined ['\n'] ((line :: texts).map (indentLine 0)) := by
  induction texts generalizing line behind with
  | nil =>
    have hline : erasedFrom blankLine 0 behind (line ++ []) = indentLine 0 line ++ [] :=
      erasedFrom_line hbehind (htexts line List.mem_cons_self) (.inl rfl)
    rw [List.append_nil, List.append_nil] at hline
    rw [joined_singleton, hline, List.map_singleton, joined_singleton]
  | cons next texts ih =>
    rw [joined_cons_cons, List.append_assoc, List.singleton_append,
      erasedFrom_line hbehind (htexts line List.mem_cons_self) (.inr ⟨_, rfl⟩), erasedFrom_newline,
      ih rfl fun t ht => htexts t (List.mem_cons_of_mem line ht)]
    simp [joined_cons_cons]

end Pattern

namespace Text

/-- The text with the spaces of its blank lines taken out. -/
def emptied (t : Text) : Text :=
  joined ['\n'] ((lines t).map fun line => if blank line then [] else line)

theorem emptied_eq (t : Text) : emptied t = joined ['\n'] ((lines t).map (indentLine 0)) := rfl

theorem clearBlank_eq_emptied (t : Text) : clearBlank t = emptied t := by
  rw [emptied_eq, ← lines_clearBlank, joined_lines]

/-- The search through the whole text finds the blank lines, each one by itself. -/
theorem erased_blankLine (t : Text) : Pattern.blankLine.erased t = emptied t := by
  obtain ⟨line, more, h⟩ := exists_lines t
  have hlines : ∀ u ∈ line :: more, '\n' ∉ u := fun u hu => sep_notMem_of_mem_pieces (h ▸ hu)
  have hstart : Pattern.atEdge none = true := rfl
  have hjoined : joined ['\n'] (line :: more) = t := by rw [← h, joined_lines]
  rw [Pattern.erased, emptied_eq, h, ← Pattern.erasedFrom_joined hstart hlines, hjoined]

/-- Blank lines behind each other, and one at either end; a carriage return is not blank. -/
example : Pattern.blankLine.erased "  \n\n a\n   \n \r\n ".toList =
    "\n\n a\n\n \r\n".toList := by decide

theorem columns_eq (level : Int) : columns level = (2 * max level 0).toNat := by
  rw [columns]
  omega

theorem indent_linewise (t u : Text) (a b : Int) :
    indent a t = Pattern.blankLine.erased (shift (a * 2).toNat t) ∧
    indent a t = joined ['\n'] ((lines t).map fun line =>
      if blank line then [] else spaces (2 * max a 0).toNat ++ line) ∧
    indent b (indent a t) = indent (max a 0 + max b 0) t ∧
    indent a (t ++ '\n' :: u) = indent a t ++ '\n' :: indent a u ∧
    (indent a t = indent a u ↔ emptied t = emptied u) := by
  refine ⟨?_, ?_, indent_indent a b t, indent_append_newline a t u, ?_⟩
  · have hcolumns : columns a = (a * 2).toNat := by
      rw [columns]
      omega
    rw [indent, clearBlank_eq_emptied, erased_blankLine, hcolumns]
  · rw [← joined_lines (indent a t), lines_indent, columns_eq]
    rfl
  · rw [indent_eq_indent_iff, clearBlank_eq_emptied, clearBlank_eq_emptied]

end Text

end CiPipeline
