import CiPipeline.Block
import CiPipeline.Proofs.Results
import CiPipeline.Proofs.WrittenForm

/-!
# CiPipeline.Proofs.EnvironmentBlock

What the text of a block of keys and values tells of the table it was written for.

* `Text.AtMargin`       — what may stand behind lines that are indented: nothing, or a line that
                          is not.
* `Scalar.write_append_inj_of_endsLine` — a value of one line ends with the line, and one of several
                          where the margin is reached again.
* `Block.Apart`         — a key behind a value of several lines, and no empty line of that value.
* `Block.write_eq_iff`  — blocks are written alike only for the same keys in the same order, with
                          values that are written alike, if all keys are apart.
* `Block.write_newlineKey` — two tables that are written alike otherwise.
-/

namespace CiPipeline

namespace Text

variable {t u rest rest' : Text}

theorem append_cons_inj {sep : Char} (ht : sep ∉ t) (hu : sep ∉ u)
    (h : t ++ sep :: rest = u ++ sep :: rest') : t = u ∧ rest = rest' := by
  rcases List.append_eq_append_iff.mp h with ⟨cut, rfl, hcut⟩ | ⟨cut, rfl, hcut⟩
  · cases cut with
    | nil => exact ⟨(List.append_nil t).symm, (List.cons.inj hcut).2⟩
    | cons c cut =>
      obtain ⟨rfl, -⟩ := List.cons.inj hcut
      simp at hu
  · cases cut with
    | nil => exact ⟨List.append_nil u, (List.cons.inj hcut).2.symm⟩
    | cons c cut =>
      obtain ⟨rfl, -⟩ := List.cons.inj hcut
      simp at ht

/-- Spaces are what makes a blank line one that is not empty. -/
theorem tidy_append (ht : ' ' ∉ t) (hu : Tidy u) : Tidy (t ++ u) := by
  induction t with
  | nil => exact hu
  | cons c t ih =>
    rw [List.mem_cons, not_or] at ht
    obtain ⟨first, more, hlines⟩ := exists_lines (t ++ u)
    intro line hline hblank
    by_cases hc : c = '\n'
    · rw [hc, List.cons_append, lines_newline, List.mem_cons] at hline
      rcases hline with rfl | hline
      · rfl
      · exact ih ht.2 line hline hblank
    · rw [List.cons_append, lines_cons hc hlines, List.mem_cons] at hline
      rcases hline with rfl | hline
      · simp [blank, Ne.symm ht.1] at hblank
      · refine ih ht.2 line ?_ hblank
        rw [hlines]
        exact List.mem_cons_of_mem first hline

/-- Nothing, or a line that starts at the margin. -/
def AtMargin (rest : Text) : Prop :=
  rest = [] ∨ ∃ c more, rest = '\n' :: c :: more ∧ c ≠ ' ' ∧ c ≠ '\n'

/-- The lines of an indented text, and a heading behind them. -/
theorem takeWhile_lines_indent (t : Text) (hrest : AtMargin rest) :
    (lines (indent 1 t ++ rest)).takeWhile (!solidHeading 0 ·) = lines (indent 1 t) := by
  have hinner : ∀ line ∈ lines (indent 1 t), solidHeading 0 line = false := by
    intro line hline
    have hnone : outline 0 (indent 1 t) = [] := outline_indent_of_lt (by decide) t
    rw [outline, List.filter_eq_nil_iff] at hnone
    simpa using hnone line hline
  rcases hrest with rfl | ⟨c, more, rfl, hspace, hnewline⟩
  · have hend : ∀ line ∈ ([] : List Text).head?, solidHeading 0 line = true := by simp
    simpa using takeWhile_append_heading hinner hend
  · obtain ⟨first, others, hmore⟩ := exists_lines more
    rw [lines_append_newline, lines_cons hnewline hmore]
    refine takeWhile_append_heading hinner fun line hline => ?_
    obtain rfl := Option.some_inj.mp hline
    exact solidHeading_cons hspace first

theorem indent_append_inj (hrest : AtMargin rest) (hrest' : AtMargin rest')
    (h : indent 1 t ++ rest = indent 1 u ++ rest') : indent 1 t = indent 1 u ∧ rest = rest' := by
  have hindent : indent 1 t = indent 1 u := by
    apply lines_injective
    rw [← takeWhile_lines_indent t hrest, ← takeWhile_lines_indent u hrest', h]
  rw [hindent] at h
  exact ⟨hindent, List.append_cancel_left h⟩

theorem append_inj_of_endsLine (ht : '\n' ∉ t) (hu : '\n' ∉ u) (hrest : EndsLine rest)
    (hrest' : EndsLine rest') (h : t ++ rest = u ++ rest') : t = u ∧ rest = rest' := by
  rcases hrest with rfl | ⟨more, rfl⟩
  · rcases hrest' with rfl | ⟨more', rfl⟩
    · simpa using h
    · rw [List.append_nil] at h
      simp [h] at ht
  · rcases hrest' with rfl | ⟨more', rfl⟩
    · rw [List.append_nil] at h
      simp [← h] at hu
    · obtain ⟨htexts, hmore⟩ := append_cons_inj ht hu h
      exact ⟨htexts, by rw [hmore]⟩

end Text

namespace Scalar

variable {t u rest rest' : Text}

/-- The head of a block is no other value. -/
theorem write_ne_bar (ht : '\n' ∉ t) : write t ≠ ['|'] := by
  intro h
  cases hp : isPlain t with
  | true =>
    rw [write_of_plain ht hp] at h
    exact head?_of_isPlain hp (c := '|') (by decide) (by rw [h]; rfl)
  | false =>
    rw [write_of_not_plain ht hp] at h
    cases h

theorem block_append_ne (hu : '\n' ∉ u) (hrest' : Text.EndsLine rest') :
    block t ++ rest ≠ write u ++ rest' := by
  intro h
  have hbar : ['|'] ++ ('\n' :: Text.indent 1 t ++ rest) = write u ++ rest' := h
  have hwrite := (Text.append_inj_of_endsLine (by decide) (newline_notMem_write hu)
    (.inr ⟨_, rfl⟩) hrest' hbar).1
  exact write_ne_bar hu hwrite.symm

theorem write_append_inj_of_endsLine (hends : Text.EndsLine rest) (hends' : Text.EndsLine rest')
    (hrest : '\n' ∈ t → Text.AtMargin rest) (hrest' : '\n' ∈ u → Text.AtMargin rest')
    (h : write t ++ rest = write u ++ rest') : write t = write u ∧ rest = rest' := by
  by_cases ht : '\n' ∈ t
  · by_cases hu : '\n' ∈ u
    · rw [write_of_newline ht, write_of_newline hu] at h ⊢
      have hblocks : Text.indent 1 t ++ rest = Text.indent 1 u ++ rest' := by
        simpa [block] using h
      obtain ⟨hindent, htail⟩ := Text.indent_append_inj (hrest ht) (hrest' hu) hblocks
      exact ⟨by rw [block, hindent, block], htail⟩
    · rw [write_of_newline ht] at h
      exact absurd h (block_append_ne hu hends')
  · by_cases hu : '\n' ∈ u
    · rw [write_of_newline hu] at h
      exact absurd h.symm (block_append_ne ht hends)
    · exact Text.append_inj_of_endsLine (newline_notMem_write ht) (newline_notMem_write hu)
        hends hends' h

end Scalar

/-! ## Entries -/

namespace Block

def written (field : String × String) : Text :=
  field.1.toList ++ ':' :: ' ' :: Scalar.write field.2

/-- An entry on a line of its own. -/
def lined (field : String × String) : Text := '\n' :: written field

/-- Behind a value of several lines, a key that starts with a newline looks like one more empty line
of the value and another key. -/
def Apart (field next : String × String) : Prop :=
  '\n' ∈ field.2.toList → next.1.toList.head? ≠ some '\n'

instance (field next : String × String) : Decidable (Apart field next) :=
  inferInstanceAs (Decidable (_ → _))

structure Legible (fields : List (String × String)) : Prop where
  allowed : ∀ field ∈ fields, keyAllowed field.1 = true
  apart : fields.IsChain Apart

theorem notMem_of_keyAllowed {key : Text} (h : keyAllowed key = true) :
    ':' ∉ key ∧ ' ' ∉ key := by
  simp only [keyAllowed, Scalar.isPlain, Bool.and_eq_true, Bool.not_eq_true',
    List.contains_eq_mem, decide_eq_false_iff_not] at h
  exact ⟨h.1.1.1, h.2⟩

theorem Legible.of_cons {field : String × String} {fields : List (String × String)}
    (h : Legible (field :: fields)) : Legible fields :=
  ⟨(List.forall_mem_cons.mp h.allowed).2, h.apart.of_cons⟩

theorem endsLine_lined (fields : List (String × String)) :
    Text.EndsLine (fields.flatMap lined) := by
  cases fields with
  | nil => exact .inl rfl
  | cons field fields => exact .inr ⟨written field ++ fields.flatMap lined, rfl⟩

theorem atMargin_lined {field : String × String} {fields : List (String × String)}
    (h : Legible (field :: fields)) (hnewline : '\n' ∈ field.2.toList) :
    Text.AtMargin (fields.flatMap lined) := by
  cases fields with
  | nil => exact .inl rfl
  | cons next fields =>
    have hspace := (notMem_of_keyAllowed (h.of_cons.allowed next List.mem_cons_self)).2
    have hhead := h.apart.rel hnewline
    right
    cases hkey : next.1.toList with
    | nil =>
      refine ⟨':', ' ' :: Scalar.write next.2 ++ fields.flatMap lined, ?_, by decide, by decide⟩
      simp [lined, written, hkey]
    | cons c key =>
      rw [hkey] at hspace hhead
      refine ⟨c, key ++ ':' :: ' ' :: Scalar.write next.2 ++ fields.flatMap lined, ?_, ?_, ?_⟩
      · simp [lined, written, hkey]
      · rintro rfl
        exact hspace List.mem_cons_self
      · rintro rfl
        exact hhead rfl

/-- The same key, with values that are written alike. -/
def SameField (field other : String × String) : Prop :=
  field.1 = other.1 ∧ Scalar.Alike field.2 other.2

theorem written_append_inj {field other : String × String}
    {fields others : List (String × String)} (hfields : Legible (field :: fields))
    (hothers : Legible (other :: others))
    (h : written field ++ fields.flatMap lined = written other ++ others.flatMap lined) :
    SameField field other ∧ fields.flatMap lined = others.flatMap lined := by
  have hcolon := (notMem_of_keyAllowed (hfields.allowed field List.mem_cons_self)).1
  have hcolon' := (notMem_of_keyAllowed (hothers.allowed other List.mem_cons_self)).1
  rw [written, written, List.append_assoc, List.append_assoc, List.cons_append,
    List.cons_append] at h
  obtain ⟨hkeys, hvalues⟩ := Text.append_cons_inj hcolon hcolon' h
  obtain ⟨hwrite, hrest⟩ := Scalar.write_append_inj_of_endsLine (endsLine_lined fields)
    (endsLine_lined others) (atMargin_lined hfields) (atMargin_lined hothers)
    (List.cons.inj hvalues).2
  exact ⟨⟨String.toList_inj.mp hkeys, Scalar.write_eq_write_iff.mp hwrite⟩, hrest⟩

theorem lined_inj {fields others : List (String × String)} (hfields : Legible fields)
    (hothers : Legible others) :
    fields.flatMap lined = others.flatMap lined ↔ List.Forall₂ SameField fields others := by
  constructor
  · refine forall₂_of_flatMap_eq ?_ (fun _ _ => Legible.of_cons) ?_ hfields hothers
    · intro field
      simp [lined]
    · intro field fields other others hlegible hlegible' h
      exact written_append_inj hlegible hlegible' (List.cons.inj h).2
  · apply flatMap_eq_of_forall₂
    rintro field other ⟨hkey, hvalue⟩
    rw [lined, lined, written, written, hkey, Scalar.write_eq_write_iff.mpr hvalue]

/-! ## Blocks -/

theorem joined_written (field : String × String) (rest : List (String × String)) :
    Text.joined ['\n'] ((field :: rest).map written) = written field ++ rest.flatMap lined := by
  rw [List.map_cons, Text.joined_cons, List.flatMap_map]
  rfl

theorem entry_eq_ok_iff {field : String × String} {t : Text} :
    entry field = .ok t ↔ keyAllowed field.1 = true ∧ written field = t := by
  have htext : (field.1 ++ ": " ++ Scalar.write field.2 : Text) = written field := by
    simp [written]
  rw [entry, htext]
  cases keyAllowed field.1 <;> simp

theorem mapM_entry_eq_ok_iff {fields : List (String × String)} {texts : List Text} :
    fields.mapM entry = .ok texts ↔
      (∀ field ∈ fields, keyAllowed field.1 = true) ∧ fields.map written = texts := by
  simp only [mapM_eq_ok_iff, entry_eq_ok_iff]
  rw [List.forall₂_and_left, ← List.forall₂_map_left_iff (R := fun t u : Text => t = u),
    List.forall₂_eq_eq_eq]

theorem write_of_nil {title : Text} {fields : Fields String} (h : fields.entries = []) :
    write title fields = .ok [] := by
  rw [write, Table.isEmpty, h]
  rfl

theorem write_of_cons {title t : Text} {fields : Fields String} {field : String × String}
    {rest : List (String × String)} (hfields : fields.entries = field :: rest)
    (h : write title fields = .ok t) :
    (∀ field ∈ fields.entries, keyAllowed field.1 = true) ∧
      t = title ++ ":\n" ++ Text.indent 1 (written field ++ rest.flatMap lined) := by
  rw [write, Table.isEmpty, hfields, if_neg (by simp)] at h
  split at h
  · cases h
  · rename_i texts htexts
    cases h
    obtain ⟨hallowed, rfl⟩ := mapM_entry_eq_ok_iff.mp htexts
    rw [hfields]
    refine ⟨hallowed, ?_⟩
    rw [← joined_written]
    rfl

/-- No blank line of a block has spaces in it before it is indented. -/
theorem tidy_entries {field : String × String} {rest : List (String × String)}
    (h : ∀ entry ∈ field :: rest, keyAllowed entry.1 = true) :
    Text.Tidy (written field ++ rest.flatMap lined) := by
  rw [← joined_written]
  apply Text.tidy_joined (by simp)
  intro t ht
  obtain ⟨entry, hentry, rfl⟩ := List.mem_map.mp ht
  have hvalue : Text.Tidy (": ".toList ++ Scalar.write entry.2) :=
    Scalar.tidy_append_write (by decide) (by decide) entry.2
  exact Text.tidy_append (notMem_of_keyAllowed (h entry hentry)).2 hvalue

/-- Two accepted tables whose keys are apart from the values before them are written alike if and
only if they hold the same keys in the same order, with values that are equal or, of several lines,
differ in the spaces of blank lines only. -/
theorem write_eq_iff {title t u : Text} {fields others : Fields String}
    (hwrite : write title fields = .ok t) (hwrite' : write title others = .ok u)
    (hapart : fields.entries.IsChain Apart) (hapart' : others.entries.IsChain Apart) :
    t = u ↔ List.Forall₂ SameField fields.entries others.entries := by
  cases hfields : fields.entries with
  | nil =>
    rw [write_of_nil hfields] at hwrite
    cases hwrite
    cases hothers : others.entries with
    | nil =>
      rw [write_of_nil hothers] at hwrite'
      cases hwrite'
      simp
    | cons other rest =>
      obtain ⟨-, rfl⟩ := write_of_cons hothers hwrite'
      simp
  | cons field rest =>
    obtain ⟨hallowed, rfl⟩ := write_of_cons hfields hwrite
    cases hothers : others.entries with
    | nil =>
      rw [write_of_nil hothers] at hwrite'
      cases hwrite'
      simp
    | cons other rest' =>
      obtain ⟨hallowed', rfl⟩ := write_of_cons hothers hwrite'
      rw [hfields] at hallowed hapart
      rw [hothers] at hallowed' hapart'
      rw [List.append_cancel_left_eq, Text.indent_eq_indent_iff,
        Text.clearBlank_of_tidy (tidy_entries hallowed),
        Text.clearBlank_of_tidy (tidy_entries hallowed')]
      have hlegible : Legible (field :: rest) := ⟨hallowed, hapart⟩
      have hlegible' : Legible (other :: rest') := ⟨hallowed', hapart'⟩
      rw [← lined_inj hlegible hlegible', List.flatMap_cons, List.flatMap_cons, lined, lined,
        List.cons_append, List.cons_append, List.cons.injEq, eq_self, true_and]

/-- The spaces of a blank line in a script are not told, those of a value on one line are; behind
that one a key may start with a newline. -/
theorem write_blankLine : ∃ t u v,
    write "env" (.ofList [("RUN", "a\n  \nb:\n"), ("DRY", "- "), ("\nEND", "")]) = .ok t ∧
    write "env" (.ofList [("RUN", "a\n\nb:\n"), ("DRY", "- "), ("\nEND", "")]) = .ok u ∧
    write "env" (.ofList [("RUN", "a\n\nb:\n"), ("DRY", "-"), ("\nEND", "")]) = .ok v ∧
    t = u ∧ u ≠ v := by
  have hspaced : write "env" (.ofList [("RUN", "a\n  \nb:\n"), ("DRY", "- "), ("\nEND", "")]) =
      .ok "env:\n  RUN: |\n    a\n\n    b:\n\n  DRY: '- '\n\n  END: ".toList := by decide
  have hempty : write "env" (.ofList [("RUN", "a\n\nb:\n"), ("DRY", "- "), ("\nEND", "")]) =
      .ok "env:\n  RUN: |\n    a\n\n    b:\n\n  DRY: '- '\n\n  END: ".toList := by decide
  have hshort : write "env" (.ofList [("RUN", "a\n\nb:\n"), ("DRY", "-"), ("\nEND", "")]) =
      .ok "env:\n  RUN: |\n    a\n\n    b:\n\n  DRY: '-'\n\n  END: ".toList := by decide
  refine ⟨_, _, _, hspaced, hempty, hshort, ?_, ?_⟩
  · refine (write_eq_iff hspaced hempty (by decide) (by decide)).mpr ?_
    exact .cons ⟨rfl, .inr (by decide)⟩ (.cons ⟨rfl, .inl rfl⟩ (.cons ⟨rfl, .inl rfl⟩ .nil))
  · rw [ne_eq, write_eq_iff hempty hshort (by decide) (by decide)]
    rintro (_ | ⟨-, hrest⟩)
    rcases hrest with _ | ⟨⟨-, hvalue⟩, -⟩
    exact absurd hvalue (by decide)

/-- A newline before a key, and one at the end of the value before that key. -/
theorem write_newlineKey : ∃ t,
    write "env" (.ofList [("A", "\nx"), ("\nB", "v")]) = .ok t ∧
    write "env" (.ofList [("A", "\nx\n"), ("B", "v")]) = .ok t ∧
    (Table.ofList [("A", "\nx"), ("\nB", "v")]).entries.map Prod.fst ≠
      (Table.ofList [("A", "\nx\n"), ("B", "v")]).entries.map Prod.fst := by
  refine ⟨"env:\n  A: |\n\n    x\n\n  B: v", ?_, ?_, ?_⟩ <;> decide

end Block
end CiPipeline
