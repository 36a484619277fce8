import CiPipeline.Text.Indent

/-!
# CiPipeline.Proofs.Lines

A text and its lines.

* `lines_append_newline` — the lines on the two sides of a newline are those of the two parts.
* `lines_injective`      — a text is known by its lines, so texts are compared line by line.
* `flatMap_of_joined`, `map_joined` — what is said, or done, on both sides of a separator apart.
* `lines_joined`         — the lines of blocks under each other are those of the blocks in turn.
* `blank`, `depth`       — what indentation looks at in a line.
* `EndsLine`             — what may stand behind a whole line.
-/

namespace CiPipeline
namespace Text

/-- Nothing but spaces. -/
def blank (line : Text) : Bool := line.all (· == ' ')

/-- How far to the right a line starts. -/
def depth (line : Text) : Nat := (line.takeWhile (· == ' ')).length

/-- Nothing stands behind the line, or another line does. -/
def EndsLine (rest : Text) : Prop := rest = [] ∨ ∃ more, rest = '\n' :: more

/-- The pieces on the two sides of a separator are those of the two parts. -/
theorem pieces_append_sep (sep : Char) (t u : Text) :
    pieces sep (t ++ sep :: u) = pieces sep t ++ pieces sep u := by
  induction t with
  | nil => exact pieces_cons_sep sep u
  | cons c rest ih =>
    rw [List.cons_append]
    by_cases hc : c = sep
    · subst hc
      rw [pieces_cons_sep, pieces_cons_sep, ih]
      rfl
    · simp only [pieces, if_neg hc, ih]
      cases hrest : pieces sep rest with
      | nil => exact absurd hrest (pieces_ne_nil sep rest)
      | cons piece more => rfl

theorem pieces_eq_singleton {sep : Char} {t : Text} (ht : sep ∉ t) : pieces sep t = [t] := by
  induction t with
  | nil => rfl
  | cons c rest ih =>
    rw [List.mem_cons, not_or] at ht
    simp only [pieces, if_neg (Ne.symm ht.1), ih ht.2]

theorem mem_of_mem_pieces {sep : Char} {t piece : Text} (h : piece ∈ pieces sep t) {c : Char}
    (hc : c ∈ piece) : c ∈ t := by
  induction t generalizing piece with
  | nil =>
    rw [pieces, List.mem_singleton] at h
    exact h ▸ hc
  | cons d rest ih =>
    obtain ⟨first, more, hpieces⟩ := List.exists_cons_of_ne_nil (pieces_ne_nil sep rest)
    rw [pieces] at h
    split at h
    · rcases List.mem_cons.mp h with rfl | h
      · cases hc
      · exact List.mem_cons_of_mem d (ih h hc)
    · simp only [hpieces, List.mem_cons] at h ih
      rcases h with rfl | h
      · rcases List.mem_cons.mp hc with rfl | hc
        · exact List.mem_cons_self
        · exact List.mem_cons_of_mem d (ih (.inl rfl) hc)
      · exact List.mem_cons_of_mem d (ih (.inr h) hc)

theorem sep_notMem_of_mem_pieces {sep : Char} {t piece : Text} (h : piece ∈ pieces sep t) :
    sep ∉ piece := by
  induction t generalizing piece with
  | nil =>
    rw [pieces, List.mem_singleton] at h
    simp [h]
  | cons c rest ih =>
    obtain ⟨first, more, hpieces⟩ := List.exists_cons_of_ne_nil (pieces_ne_nil sep rest)
    rw [pieces] at h
    split at h
    · rcases List.mem_cons.mp h with rfl | h
      · simp
      · exact ih h
    · rename_i hc
      simp only [hpieces, List.mem_cons] at h ih
      rcases h with rfl | h
      · rw [List.mem_cons, not_or]
        exact ⟨Ne.symm hc, ih (.inl rfl)⟩
      · exact ih (.inr h)

theorem lines_newline (t : Text) : lines ('\n' :: t) = [] :: lines t :=
  pieces_cons_sep '\n' t

theorem lines_cons {c : Char} (hc : c ≠ '\n') {t line : Text} {more : List Text}
    (h : lines t = line :: more) : lines (c :: t) = (c :: line) :: more := by
  simp only [lines, pieces, if_neg hc] at h ⊢
  rw [h]

/-- Every text has a first line. -/
theorem exists_lines (t : Text) : ∃ line more, lines t = line :: more := by
  cases h : lines t with
  | nil => exact absurd h (pieces_ne_nil '\n' t)
  | cons line more => exact ⟨line, more, rfl⟩

/-- The first character is that of the first line. -/
theorem exists_cons_of_lines {c : Char} {t first : Text} {more : List Text}
    (h : lines t = (c :: first) :: more) :
    ∃ inner, t = c :: inner ∧ lines inner = first :: more := by
  cases t with
  | nil => cases h
  | cons d inner =>
    obtain ⟨line, others, hinner⟩ := exists_lines inner
    by_cases hd : d = '\n'
    · rw [hd, lines_newline] at h
      cases h
    · rw [lines_cons hd hinner, List.cons.injEq, List.cons.injEq] at h
      obtain ⟨⟨rfl, rfl⟩, rfl⟩ := h
      exact ⟨inner, rfl, hinner⟩

theorem lines_append {s : Text} (hs : '\n' ∉ s) {t line : Text} {more : List Text}
    (h : lines t = line :: more) : lines (s ++ t) = (s ++ line) :: more := by
  induction s with
  | nil => exact h
  | cons c rest ih =>
    rw [List.mem_cons, not_or] at hs
    exact lines_cons (fun e => hs.1 e.symm) (ih hs.2)

theorem lines_eq_singleton {s : Text} (hs : '\n' ∉ s) : lines s = [s] :=
  pieces_eq_singleton hs

theorem lines_append_newline (t u : Text) : lines (t ++ '\n' :: u) = lines t ++ lines u :=
  pieces_append_sep '\n' t u

theorem lines_injective {t u : Text} (h : lines t = lines u) : t = u := by
  rw [← joined_lines t, ← joined_lines u, h]

theorem joined_cons_flatMap (sep t : Text) (texts : List Text) :
    joined sep (t :: texts) = t ++ texts.flatMap (sep ++ ·) := by
  induction texts generalizing t with
  | nil => simp [joined_singleton]
  | cons u more ih =>
    rw [joined_cons_cons, ih, List.flatMap_cons, List.append_assoc, List.append_assoc]

theorem joined_cons (c : Char) (t : Text) (texts : List Text) :
    joined [c] (t :: texts) = t ++ texts.flatMap (c :: ·) :=
  joined_cons_flatMap [c] t texts

/-- A separator of two newlines has an empty text between them. -/
theorem append_separator (t u : Text) :
    t ++ ['\n', '\n'] ++ u = t ++ '\n' :: ([] ++ '\n' :: u) := by
  simp

/-- What can be said on the two sides of a separator apart is said of the texts in turn. -/
theorem flatMap_of_joined {α : Type} {f : Text → List α} {sep : Text}
    (hsep : ∀ t u, f (t ++ sep ++ u) = f t ++ f u) {texts : List Text} (hne : texts ≠ []) :
    f (joined sep texts) = texts.flatMap f := by
  induction texts with
  | nil => exact absurd rfl hne
  | cons t rest ih =>
    cases rest with
    | nil => rw [joined_singleton, List.flatMap_singleton]
    | cons u more =>
      rw [joined_cons_cons, hsep, ih (List.cons_ne_nil u more)]
      rfl

/-- What changes the two sides of a separator apart changes the texts one by one. -/
theorem map_joined {f : Text → Text} {sep : Text}
    (hsep : ∀ t u, f (t ++ sep ++ u) = f t ++ sep ++ f u) {texts : List Text} (hne : texts ≠ []) :
    f (joined sep texts) = joined sep (texts.map f) := by
  induction texts with
  | nil => exact absurd rfl hne
  | cons t rest ih =>
    cases rest with
    | nil => rw [joined_singleton, List.map_singleton, joined_singleton]
    | cons u more =>
      rw [joined_cons_cons, hsep, ih (List.cons_ne_nil u more)]
      simp only [List.map_cons, joined_cons_cons]

/-- The pieces of texts with the separator between them are those of the texts in turn. -/
theorem pieces_joined (sep : Char) {texts : List Text} (hne : texts ≠ []) :
    pieces sep (joined [sep] texts) = texts.flatMap (pieces sep) := by
  refine flatMap_of_joined (fun t u => ?_) hne
  rw [List.append_assoc, List.singleton_append, pieces_append_sep]

theorem pieces_joined_self {sep : Char} {texts : List Text} (hne : texts ≠ [])
    (h : ∀ t ∈ texts, sep ∉ t) : pieces sep (joined [sep] texts) = texts := by
  rw [pieces_joined sep hne]
  clear hne
  induction texts with
  | nil => rfl
  | cons t rest ih =>
    rw [List.flatMap_cons, pieces_eq_singleton (h t List.mem_cons_self),
      ih fun u hu => h u (List.mem_cons_of_mem t hu)]
    rfl

theorem lines_joined {texts : List Text} (hne : texts ≠ []) :
    lines (joined ['\n'] texts) = texts.flatMap lines :=
  pieces_joined '\n' hne

theorem newline_notMem_joined {sep : Text} (hsep : '\n' ∉ sep) {texts : List Text}
    (h : ∀ t ∈ texts, '\n' ∉ t) : '\n' ∉ joined sep texts := by
  induction texts with
  | nil => simp [joined_nil]
  | cons t rest ih =>
    have ht : '\n' ∉ t := h t List.mem_cons_self
    have hrest := ih fun u hu => h u (List.mem_cons_of_mem t hu)
    cases rest with
    | nil => rwa [joined_singleton]
    | cons u more =>
      rw [joined_cons_cons]
      simp [ht, hsep, hrest]

@[simp] theorem blank_nil : blank [] = true := rfl

theorem blank_append (t u : Text) : blank (t ++ u) = (blank t && blank u) :=
  List.all_append

theorem blank_spaces_append (n : Nat) (line : Text) :
    blank (spaces n ++ line) = blank line := by
  simp [blank, spaces]

theorem depth_spaces_append (n : Nat) (line : Text) :
    depth (spaces n ++ line) = n + depth line := by
  induction n with
  | zero => simp [spaces]
  | succ n ih =>
    have hs : spaces (n + 1) = ' ' :: spaces n := List.replicate_succ
    rw [hs, List.cons_append]
    simp only [depth, List.takeWhile_cons, beq_self_eq_true, if_true, List.length_cons] at ih ⊢
    omega

theorem newline_notMem_spaces (n : Nat) : '\n' ∉ spaces n := by
  intro h
  exact absurd (List.eq_of_mem_replicate h) (by decide)

end Text
end CiPipeline
