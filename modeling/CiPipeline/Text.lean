/-!
# CiPipeline.Text

Text as a list of characters, the form in which documents are assembled.

* `Text`          — a text; string literals and strings stand for texts wherever one is expected.
* `Text.pieces`   — the pieces of a text between the occurrences of a separator.
* `Text.lines`    — the pieces between newlines.
* `Text.joined`   — texts put together with a separator between them.
* `Text.occursIn` — whether a text occurs in another one as a block.
* `Text.ledBy`, `Text.endedBy` — a lead before, or an end after, a text that holds something.

A character is a Unicode scalar value, in texts as in strings. Half of a surrogate pair is none, so
every text has bytes.
-/

namespace CiPipeline

abbrev Text := List Char

instance : Coe String Text := ⟨String.toList⟩

namespace Text

/-- The pieces between the occurrences of `sep`; a text without `sep` is one piece. -/
def pieces (sep : Char) : Text → List Text
  | [] => [[]]
  | c :: rest =>
    if c = sep then [] :: pieces sep rest
    else match pieces sep rest with
      | [] => [[c]]
      | piece :: more => (c :: piece) :: more

/-- Only a newline ends a line: a carriage return is part of the line it stands in. -/
def lines (t : Text) : List Text := pieces '\n' t

def joined (sep : Text) (texts : List Text) : Text := sep.intercalate texts

def occursIn (needle : Text) : Text → Bool
  | [] => needle.isEmpty
  | c :: rest => needle.isPrefixOf (c :: rest) || occursIn needle rest

def ledBy (lead : Text) : Text → Text
  | [] => []
  | c :: rest => lead ++ c :: rest

def endedBy (tail : Text) : Text → Text
  | [] => []
  | c :: rest => c :: rest ++ tail

theorem pieces_ne_nil (sep : Char) (t : Text) : pieces sep t ≠ [] := by
  cases t with
  | nil => simp [pieces]
  | cons c rest =>
    simp only [pieces]
    split
    · simp
    · split <;> simp

theorem pieces_cons_sep (sep : Char) (t : Text) :
    pieces sep (sep :: t) = [] :: pieces sep t := by
  simp [pieces]

theorem joined_nil (sep : Text) : joined sep [] = [] := rfl

theorem joined_singleton (sep t : Text) : joined sep [t] = t := by
  simp [joined, List.intercalate]

theorem joined_cons_cons (sep t u : Text) (rest : List Text) :
    joined sep (t :: u :: rest) = t ++ sep ++ joined sep (u :: rest) := by
  simp [joined, List.intercalate, List.intersperse]

/-- Putting the pieces together again gives the text. -/
theorem joined_pieces (sep : Char) (t : Text) : joined [sep] (pieces sep t) = t := by
  induction t with
  | nil => rfl
  | cons c rest ih =>
    simp only [pieces]
    split
    · rename_i h
      cases hp : pieces sep rest with
      | nil => exact absurd hp (pieces_ne_nil sep rest)
      | cons p ps =>
        rw [joined_cons_cons, ← hp, ih, h]
        rfl
    · cases hp : pieces sep rest with
      | nil => exact absurd hp (pieces_ne_nil sep rest)
      | cons p ps =>
        rw [hp] at ih
        cases ps with
        | nil =>
          rw [joined_singleton] at ih
          simp [joined_singleton, ih]
        | cons q qs =>
          rw [joined_cons_cons] at ih
          simp only [joined_cons_cons, List.cons_append, ih]

theorem joined_lines (t : Text) : joined ['\n'] (lines t) = t :=
  joined_pieces '\n' t

theorem occursIn_iff {needle t : Text} : occursIn needle t = true ↔ needle <:+: t := by
  induction t with
  | nil => simp [occursIn]
  | cons c t ih =>
    rw [occursIn, Bool.or_eq_true, List.isPrefixOf_iff_prefix, ih, List.infix_cons_iff]

end Text

end CiPipeline
