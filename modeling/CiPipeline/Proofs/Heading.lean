import CiPipeline.Proofs.Indentation
import CiPipeline.Scalar

/-!
# CiPipeline.Proofs.Heading

Lines that start far to the left.

* `heading`      — a line that holds something and starts in one of the first columns.
* `outline`      — those of a text, lines of spaces left aside.
* `Tidy`         — a text whose lines are empty if they hold nothing but spaces.
* `Scalar.lines_append_write` — the first line of a value behind its key is all that can be seen of
  the value in the columns of the key.
-/

namespace CiPipeline
namespace Text

def heading (limit : Nat) (line : Text) : Bool := !line.isEmpty && decide (depth line ≤ limit)

/-- A heading that is more than a few spaces. -/
def solidHeading (limit : Nat) (line : Text) : Bool := !blank line && decide (depth line ≤ limit)

def outline (limit : Nat) (t : Text) : List Text := (lines t).filter (solidHeading limit)

def Tidy (t : Text) : Prop := ∀ line ∈ lines t, blank line = true → line = []

variable {limit : Nat}

theorem solidHeading_cons {c : Char} (hc : c ≠ ' ') (line : Text) :
    solidHeading limit (c :: line) = true := by
  simp [solidHeading, blank, depth, hc]

theorem solidHeading_two_spaces (hlimit : limit < 2) (line : Text) :
    solidHeading limit (' ' :: ' ' :: line) = false := by
  have hdepth : depth (' ' :: ' ' :: line) = 2 + depth line := depth_spaces_append 2 line
  simp only [solidHeading, hdepth, Bool.and_eq_false_iff, decide_eq_false_iff_not]
  right
  omega

theorem solidHeading_indentLine (n : Nat) (line : Text) :
    solidHeading limit (indentLine n line) =
      (decide (n ≤ limit) && solidHeading (limit - n) line) := by
  cases hb : blank line with
  | true => simp [indentLine_of_blank hb, solidHeading, hb]
  | false =>
    rw [indentLine_of_not_blank hb]
    simp only [solidHeading, blank_spaces_append, depth_spaces_append, hb, Bool.not_false,
      Bool.true_and]
    by_cases hn : n ≤ limit
    · have hiff : n + depth line ≤ limit ↔ depth line ≤ limit - n := by omega
      simp [hn, hiff]
    · have hnot : ¬ n + depth line ≤ limit := by omega
      simp [hn, hnot]

/-- The lines up to the next heading. -/
theorem takeWhile_append_heading {inner outer : List Text}
    (hinner : ∀ line ∈ inner, solidHeading limit line = false)
    (houter : ∀ line ∈ outer.head?, solidHeading limit line = true) :
    (inner ++ outer).takeWhile (!solidHeading limit ·) = inner := by
  have hall : ∀ line ∈ inner, (!solidHeading limit line) = true := by simpa using hinner
  rw [List.takeWhile_append_of_pos hall]
  cases outer with
  | nil => exact List.append_nil inner
  | cons line outer =>
    rw [List.takeWhile_cons, houter line rfl]
    exact List.append_nil inner

/-! ## Outlines -/

theorem outline_append_newline (t u : Text) :
    outline limit (t ++ '\n' :: u) = outline limit t ++ outline limit u := by
  rw [outline, lines_append_newline, List.filter_append]
  rfl

@[simp] theorem outline_nil : outline limit [] = [] := rfl

theorem outline_of_flat {t : Text} (hflat : '\n' ∉ t) {c : Char} {rest : Text} (ht : t = c :: rest)
    (hc : c ≠ ' ') : outline limit t = [t] := by
  rw [outline, lines_eq_singleton hflat, List.filter_cons, ht, solidHeading_cons hc]
  rfl

theorem outline_of_two_spaces (hlimit : limit < 2) {t : Text} (hflat : '\n' ∉ t) {rest : Text}
    (ht : t = ' ' :: ' ' :: rest) : outline limit t = [] := by
  rw [outline, lines_eq_singleton hflat, List.filter_cons, ht, solidHeading_two_spaces hlimit]
  rfl

/-- What is indented far enough leaves no trace in an outline. -/
theorem outline_indent_of_lt {level : Int} (h : limit < columns level) (t : Text) :
    outline limit (indent level t) = [] := by
  rw [outline, lines_indent, List.filter_eq_nil_iff]
  intro line hline
  obtain ⟨inner, _, rfl⟩ := List.mem_map.mp hline
  rw [solidHeading_indentLine, decide_eq_false (Nat.not_le.mpr h)]
  simp

theorem outline_indent {l : Nat} {level : Int} (h : columns level ≤ l) (t : Text) :
    outline l (indent level t) =
      (outline (l - columns level) t).map (spaces (columns level) ++ ·) := by
  have hkeep : (solidHeading l ∘ indentLine (columns level)) =
      solidHeading (l - columns level) := by
    funext line
    simp [solidHeading_indentLine, h]
  rw [outline, outline, lines_indent, List.filter_map, hkeep]
  apply List.map_congr_left
  intro line hline
  have hsolid : solidHeading (l - columns level) line = true := (List.mem_filter.mp hline).2
  have hb : blank line = false := by
    simp only [solidHeading, Bool.and_eq_true, Bool.not_eq_true'] at hsolid
    exact hsolid.1
  exact indentLine_of_not_blank hb _

/-- One level moves an outline by two columns. -/
theorem outline_indent_one (t : Text) :
    outline (2 + limit) (indent 1 t) = (outline limit t).map (spaces 2 ++ ·) := by
  have h := outline_indent (l := 2 + limit) (Nat.le_add_right (columns 1) limit) t
  rwa [show columns 1 = 2 from rfl, Nat.add_sub_cancel_left] at h

/-- The outline of blocks under each other. -/
theorem outline_joined {texts : List Text} (hne : texts ≠ []) :
    outline limit (joined ['\n'] texts) = texts.flatMap (outline limit) := by
  rw [outline, lines_joined hne, List.filter_flatMap]
  rfl

/-- Empty lines between two blocks leave no trace. -/
theorem outline_separated (texts : List Text) :
    outline limit (joined ['\n', '\n'] texts) = texts.flatMap (outline limit) := by
  cases texts with
  | nil => rfl
  | cons first rest =>
    refine flatMap_of_joined (fun t u => ?_) (List.cons_ne_nil first rest)
    rw [append_separator, outline_append_newline, outline_append_newline, outline_nil]
    rfl

/-! ## Tidy texts -/

theorem tidy_joined {texts : List Text} (hne : texts ≠ []) (h : ∀ t ∈ texts, Tidy t) :
    Tidy (joined ['\n'] texts) := by
  intro line hline
  rw [lines_joined hne] at hline
  obtain ⟨t, ht, hline⟩ := List.mem_flatMap.mp hline
  exact h t ht line hline

theorem tidy_nil : Tidy [] := by
  intro line hline _
  exact List.mem_singleton.mp hline

theorem tidy_of_flat {t : Text} (hflat : '\n' ∉ t) (hsolid : blank t = false) : Tidy t := by
  intro line hline hb
  rw [lines_eq_singleton hflat, List.mem_singleton] at hline
  rw [hline, hsolid] at hb
  cases hb

theorem tidy_indent (level : Int) (t : Text) : Tidy (indent level t) := by
  intro line hline hb
  rw [lines_indent] at hline
  obtain ⟨inner, _, rfl⟩ := List.mem_map.mp hline
  cases hinner : blank inner with
  | true => exact indentLine_of_blank hinner _
  | false =>
    rw [indentLine_of_not_blank hinner, blank_spaces_append, hinner] at hb
    cases hb

/-- In a tidy text no line is a heading only because it holds spaces. -/
theorem filter_heading_of_tidy {t : Text} (ht : Tidy t) :
    (lines t).filter (heading limit) = outline limit t := by
  apply List.filter_congr
  intro line hline
  cases hb : blank line with
  | true => rw [ht line hline hb]; rfl
  | false =>
    have hne : line ≠ [] := by
      rintro rfl
      cases hb
    simp [heading, solidHeading, hb, hne]

end Text

/-! ## Written values -/

namespace Scalar

/-- The first line of a written value. -/
def opening (t : Text) : Text := if t.contains '\n' then ['|'] else write t

/-- The lines after the first one. -/
def continuation (t : Text) : List Text :=
  if t.contains '\n' then Text.lines (Text.indent 1 t) else []

theorem newline_notMem_write {t : Text} (h : '\n' ∉ t) : '\n' ∉ write t := by
  have hdoubled : '\n' ∉ doubled t := by
    intro hmem
    obtain ⟨c, hc, hcd⟩ := List.mem_flatMap.mp hmem
    by_cases hq : c = '\''
    · simp [hq] at hcd
    · rw [if_neg hq, List.mem_singleton] at hcd
      exact h (hcd ▸ hc)
  have hcontains : t.contains '\n' = false := by simpa using h
  rw [write, hcontains]
  by_cases hp : isPlain t
  · simpa [hp] using h
  · simpa [hp, quoted] using hdoubled

theorem lines_append_write {lead : Text} (hlead : '\n' ∉ lead) (t : Text) :
    Text.lines (lead ++ write t) = (lead ++ opening t) :: continuation t := by
  cases hc : t.contains '\n' with
  | true =>
    have hflat : '\n' ∉ lead ++ ['|'] := by simp [hlead]
    have hwrite : lead ++ write t = (lead ++ ['|']) ++ '\n' :: Text.indent 1 t := by
      rw [write, if_pos hc, block, List.append_assoc]
      rfl
    rw [hwrite, Text.lines_append_newline, Text.lines_eq_singleton hflat, opening, continuation,
      hc]
    rfl
  | false =>
    have hwrite : '\n' ∉ write t := newline_notMem_write (by simpa using hc)
    have hflat : '\n' ∉ lead ++ write t := by simp [hlead, hwrite]
    rw [Text.lines_eq_singleton hflat, opening, continuation, hc]
    rfl

theorem outline_append_write {limit : Nat} (hlimit : limit < 2) {lead rest : Text} {c : Char}
    (hflat : '\n' ∉ lead) (hlead : lead = c :: rest) (hc : c ≠ ' ') (t : Text) :
    Text.outline limit (lead ++ write t) = [lead ++ opening t] := by
  have hmore : (continuation t).filter (Text.solidHeading limit) = [] := by
    rw [continuation]
    split
    · exact Text.outline_indent_of_lt hlimit t
    · rfl
  rw [Text.outline, lines_append_write hflat, List.filter_cons, hmore, hlead, List.cons_append,
    Text.solidHeading_cons hc]
  rfl

theorem tidy_append_write {lead : Text} (hflat : '\n' ∉ lead) (hsolid : Text.blank lead = false)
    (t : Text) : Text.Tidy (lead ++ write t) := by
  intro line hline hb
  rw [lines_append_write hflat, List.mem_cons] at hline
  rcases hline with rfl | hline
  · rw [Text.blank_append, hsolid] at hb
    cases hb
  · rw [continuation] at hline
    split at hline
    · exact Text.tidy_indent 1 t line hline hb
    · cases hline

theorem newline_notMem_flowList {items : List String} (h : ∀ item ∈ items, '\n' ∉ item.toList) :
    '\n' ∉ flowList items := by
  have hjoined : '\n' ∉ Text.joined ", " (items.map fun item : String => write item) := by
    apply Text.newline_notMem_joined (by decide)
    intro t ht
    obtain ⟨item, hitem, rfl⟩ := List.mem_map.mp ht
    exact newline_notMem_write (h item hitem)
  rw [flowList, List.mem_append, List.mem_append, not_or, not_or]
  exact ⟨⟨by decide, hjoined⟩, by decide⟩

end Scalar
end CiPipeline
