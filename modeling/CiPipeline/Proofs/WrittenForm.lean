import Mathlib.Data.List.Forall2
import CiPipeline.Proofs.Heading

/-!
# CiPipeline.Proofs.WrittenForm

What the written form of a value tells of the value.

* `Text.indent_eq_indent_iff` — indentation loses the spaces of blank lines, and nothing else.
* `doubled_append_inj` — a quote that is not doubled is where a quoted value ends.
* `Alike`              — the same value, or two of several lines that differ in blank lines only.
* `write_eq_write_iff` — values that are written alike.
* `write_faithful`     — how the written form starts says how the value is read from it.
* `forall₂_of_flatMap_eq` — pieces that end where they can be seen to end are known by their text.
-/

namespace CiPipeline

namespace Text

variable {t u : Text}

theorem drop_indentLine (n : Nat) (line : Text) :
    (indentLine n line).drop n = indentLine 0 line := by
  cases h : blank line with
  | true => rw [indentLine_of_blank h, indentLine_of_blank h, List.drop_nil]
  | false =>
    rw [indentLine_of_not_blank h, indentLine_of_not_blank h]
    simp [spaces]

theorem indent_clearBlank (level : Int) (t : Text) :
    indent level (clearBlank t) = indent level t := by
  apply lines_injective
  rw [lines_indent, lines_clearBlank, List.map_map, lines_indent]
  congr 1
  funext line
  exact indentLine_indentLine _ 0 line

theorem indent_eq_indent_iff {level : Int} :
    indent level t = indent level u ↔ clearBlank t = clearBlank u := by
  constructor
  · intro h
    have hdrop (v : Text) :
        (lines (indent level v)).map (List.drop (columns level)) = lines (clearBlank v) := by
      rw [lines_indent, lines_clearBlank, List.map_map]
      congr 1
      funext line
      exact drop_indentLine _ line
    apply lines_injective
    rw [← hdrop, h, hdrop]
  · intro h
    rw [← indent_clearBlank, h, indent_clearBlank]

theorem clearBlank_of_tidy (h : Tidy t) : clearBlank t = t := by
  apply lines_injective
  rw [lines_clearBlank, List.map_congr_left, List.map_id]
  intro line hline
  cases hb : blank line with
  | true => rw [indentLine_of_blank hb, h line hline hb, id]
  | false => rw [indentLine_of_not_blank hb]; rfl

end Text

namespace Scalar

variable {s t u : Text}

theorem write_of_newline (h : '\n' ∈ t) : write t = block t := by
  rw [write, if_pos (by simpa using h)]

theorem write_of_plain (h : '\n' ∉ t) (hplain : isPlain t = true) : write t = t := by
  rw [write, if_neg (by simpa using h), if_pos hplain]

theorem write_of_not_plain (h : '\n' ∉ t) (hplain : isPlain t = false) : write t = quoted t := by
  rw [write, if_neg (by simpa using h), hplain]
  rfl

/-- A plain value starts neither like a quoted one nor like a block. -/
theorem head?_of_isPlain (hplain : isPlain t = true) {c : Char} (hc : c ∈ indicators) :
    t.head? ≠ some c := by
  cases t with
  | nil => simp
  | cons d rest =>
    rintro ⟨rfl⟩
    simp [isPlain, hc] at hplain

/-- The value up to the first quote that is not doubled, and what follows that quote. -/
def readQuoted : Text → Option (Text × Text)
  | [] => none
  | '\'' :: '\'' :: rest => (readQuoted rest).map fun (value, more) => ('\'' :: value, more)
  | '\'' :: rest => some ([], rest)
  | c :: rest => (readQuoted rest).map fun (value, more) => (c :: value, more)

theorem readQuoted_doubled (t : Text) {rest : Text} (hrest : rest.head? ≠ some '\'') :
    readQuoted (doubled t ++ '\'' :: rest) = some (t, rest) := by
  induction t with
  | nil =>
    rw [show doubled [] ++ '\'' :: rest = '\'' :: rest from rfl, readQuoted]
    rintro more rfl
    exact hrest rfl
  | cons c t ih =>
    by_cases hc : c = '\''
    · subst hc
      rw [show doubled ('\'' :: t) ++ '\'' :: rest =
        '\'' :: '\'' :: (doubled t ++ '\'' :: rest) from rfl, readQuoted, ih]
      rfl
    · have hdoubled : doubled (c :: t) ++ '\'' :: rest = c :: (doubled t ++ '\'' :: rest) := by
        simp [doubled, hc]
      rw [hdoubled, readQuoted, ih]
      · rfl
      · exact fun _ h _ => hc h
      · exact hc

theorem quoted_append_inj {r r' : Text} (hr : r.head? ≠ some '\'') (hr' : r'.head? ≠ some '\'')
    (h : quoted t ++ r = quoted u ++ r') : t = u ∧ r = r' := by
  have hread : readQuoted (doubled t ++ '\'' :: r) = readQuoted (doubled u ++ '\'' :: r') := by
    simpa [quoted] using congrArg (fun text : Text => readQuoted text.tail) h
  rw [readQuoted_doubled t hr, readQuoted_doubled u hr', Option.some_inj] at hread
  exact Prod.mk.inj hread

/-- Without a newline nothing of a value is lost. -/
theorem write_inj_of_flat (ht : '\n' ∉ t) (hu : '\n' ∉ u) (h : write t = write u) : t = u := by
  cases hp : isPlain t with
  | true =>
    cases hq : isPlain u with
    | true => rwa [write_of_plain ht hp, write_of_plain hu hq] at h
    | false =>
      rw [write_of_plain ht hp, write_of_not_plain hu hq] at h
      exact absurd (h ▸ rfl) (head?_of_isPlain hp (c := '\'') (by decide))
  | false =>
    cases hq : isPlain u with
    | true =>
      rw [write_of_not_plain ht hp, write_of_plain hu hq] at h
      exact absurd (h ▸ rfl) (head?_of_isPlain hq (c := '\'') (by decide))
    | false =>
      rw [write_of_not_plain ht hp, write_of_not_plain hu hq] at h
      have hquoted : quoted t ++ [] = quoted u ++ [] := by rw [h]
      exact (quoted_append_inj (by simp) (by simp) hquoted).1

/-- One value, or two of several lines that differ in the spaces of blank lines only. -/
def Alike (t u : Text) : Prop :=
  t = u ∨ '\n' ∈ t ∧ '\n' ∈ u ∧ Text.clearBlank t = Text.clearBlank u

instance (t u : Text) : Decidable (Alike t u) := inferInstanceAs (Decidable (_ ∨ _))

theorem write_eq_write_iff : write t = write u ↔ Alike t u := by
  constructor
  · intro h
    by_cases ht : '\n' ∈ t
    · by_cases hu : '\n' ∈ u
      · rw [write_of_newline ht, write_of_newline hu, block, block, List.cons.injEq,
          List.cons.injEq, Text.indent_eq_indent_iff] at h
        exact .inr ⟨ht, hu, h.2.2⟩
      · refine absurd ?_ (newline_notMem_write hu)
        rw [← h, write_of_newline ht, block]
        simp
    · by_cases hu : '\n' ∈ u
      · refine absurd ?_ (newline_notMem_write ht)
        rw [h, write_of_newline hu, block]
        simp
      · exact .inl (write_inj_of_flat ht hu h)
  · rintro (rfl | ⟨ht, hu, hclear⟩)
    · rfl
    · rw [write_of_newline ht, write_of_newline hu, block, block,
        Text.indent_eq_indent_iff.mpr hclear]

theorem Alike.symm (h : Alike t u) : Alike u t :=
  write_eq_write_iff.mp (write_eq_write_iff.mpr h).symm

/-- On one line there are no blank lines to differ in. -/
theorem Alike.eq_of_flat (h : Alike t u) (ht : '\n' ∉ t) : t = u := by
  rcases h with h | ⟨hnewline, -⟩
  · exact h
  · exact absurd hnewline ht

/-! ## The three forms -/

theorem bar_prefix_write_iff : ['|', '\n'] <+: write t ↔ '\n' ∈ t := by
  constructor
  · rintro ⟨rest, hwrite⟩
    refine Classical.byContradiction fun hflat => newline_notMem_write hflat ?_
    rw [← hwrite]
    simp
  · intro hnewline
    rw [write_of_newline hnewline, block]
    exact List.prefix_append ['|', '\n'] _

theorem quote_prefix_write_iff :
    ['\''] <+: write t ↔ '\n' ∉ t ∧ isPlain t = false := by
  constructor
  · rintro ⟨rest, hwrite⟩
    have hflat : '\n' ∉ t := by
      intro hnewline
      rw [write_of_newline hnewline, block] at hwrite
      cases hwrite
    refine ⟨hflat, Bool.eq_false_iff.mpr fun hplain => ?_⟩
    rw [write_of_plain hflat hplain] at hwrite
    exact head?_of_isPlain hplain (c := '\'') (by decide) (hwrite ▸ rfl)
  · rintro ⟨hflat, hplain⟩
    rw [write_of_not_plain hflat hplain, quoted]
    exact List.prefix_append ['\''] _

/-- The text in which each pair of quotes is one quote, read from the left. -/
def undoubled : Text → Text
  | [] => []
  | '\'' :: '\'' :: rest => '\'' :: undoubled rest
  | c :: rest => c :: undoubled rest

theorem undoubled_doubled (t : Text) : undoubled (doubled t) = t := by
  induction t with
  | nil => rfl
  | cons c t ih =>
    by_cases hc : c = '\''
    · subst hc
      rw [show doubled ('\'' :: t) = '\'' :: '\'' :: doubled t from rfl, undoubled, ih]
    · have hdoubled : doubled (c :: t) = c :: doubled t := by simp [doubled, hc]
      rw [hdoubled, undoubled, ih]
      exact fun _ hquote _ => hc hquote

/-- A value is lost in its written form only as far as the spaces of blank lines go. How the form
starts says which of the three it is, and so how to read the value from it. -/
theorem write_faithful (s t : Text) :
    (write s = write t ↔ Alike s t) ∧
    (['|', '\n'] <+: write s ↔ '\n' ∈ s) ∧
    (['\''] <+: write s ↔ '\n' ∉ s ∧ isPlain s = false) ∧
    (['\''] <+: write s → ∃ inner, write s = '\'' :: inner ++ ['\''] ∧ undoubled inner = s) ∧
    (¬ ['|', '\n'] <+: write s → ¬ ['\''] <+: write s → write s = s) := by
  refine ⟨write_eq_write_iff, bar_prefix_write_iff, quote_prefix_write_iff, ?_, ?_⟩
  · intro hquote
    obtain ⟨hflat, hplain⟩ := quote_prefix_write_iff.mp hquote
    exact ⟨doubled s, write_of_not_plain hflat hplain, undoubled_doubled s⟩
  · intro hbar hquote
    rw [bar_prefix_write_iff] at hbar
    rw [quote_prefix_write_iff, not_and, Bool.not_eq_false] at hquote
    exact write_of_plain hbar (hquote hbar)

/-- A value that looks like a quoted one already, and one that looks like a block but for the place
of its bar. -/
theorem write_faithful_lookalikes :
    (['\''] <+: write "'|'" ∧
      ∃ inner, write "'|'" = '\'' :: inner ++ ['\''] ∧ undoubled inner = "'|'".toList) ∧
    ¬ ['|', '\n'] <+: write " | ''" ∧ ¬ ['\''] <+: write " | ''" ∧
    write " | ''" = " | ''".toList := by
  obtain ⟨-, -, -, hquoted, -⟩ := write_faithful "'|'" " | ''"
  obtain ⟨-, -, -, -, hplain⟩ := write_faithful " | ''" "'|'"
  have hquote : ['\''] <+: write "'|'" := by decide
  have hbar : ¬ ['|', '\n'] <+: write " | ''" := by decide
  have hnone : ¬ ['\''] <+: write " | ''" := by decide
  exact ⟨⟨hquote, hquoted hquote⟩, hbar, hnone, hplain hbar hnone⟩

end Scalar

/-! ## Pieces in a row -/

section

variable {α : Type} {P : List α → Prop} {R : α → α → Prop} {f : α → Text} {xs ys : List α}

theorem forall₂_of_flatMap_eq (hne : ∀ x, f x ≠ []) (hmore : ∀ x xs, P (x :: xs) → P xs)
    (hfirst : ∀ x xs y ys, P (x :: xs) → P (y :: ys) →
      f x ++ xs.flatMap f = f y ++ ys.flatMap f → R x y ∧ xs.flatMap f = ys.flatMap f)
    (hxs : P xs) (hys : P ys) (h : xs.flatMap f = ys.flatMap f) : List.Forall₂ R xs ys := by
  induction xs generalizing ys with
  | nil =>
    cases ys with
    | nil => exact .nil
    | cons y ys => exact absurd (List.append_eq_nil_iff.mp h.symm).1 (hne y)
  | cons x xs ih =>
    cases ys with
    | nil => exact absurd (List.append_eq_nil_iff.mp h).1 (hne x)
    | cons y ys =>
      obtain ⟨hsame, hrest⟩ := hfirst x xs y ys hxs hys h
      exact .cons hsame (ih (hmore x xs hxs) (hmore y ys hys) hrest)

theorem flatMap_eq_of_forall₂ (hsame : ∀ x y, R x y → f x = f y) (h : List.Forall₂ R xs ys) :
    xs.flatMap f = ys.flatMap f := by
  induction h with
  | nil => rfl
  | cons hfirst _ ih => rw [List.flatMap_cons, List.flatMap_cons, hsame _ _ hfirst, ih]

end

end CiPipeline
