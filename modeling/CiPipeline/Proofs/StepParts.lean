import CiPipeline.Proofs.EnvironmentBlock
import CiPipeline.Step

/-!
# CiPipeline.Proofs.StepParts

What the text of a step tells of the step.

* `Text.Keyed`         — a text that starts with one of a few keys.
* `Text.Part`          — what may be left out: a line behind a key, and lines further to the right.
* `Text.parts_append_inj` — parts in a row are known by the text, whichever of them are there.
* `Step.parts`         — what stands before the action of a step.
* `Step.SameParts`     — steps whose parts and actions look the same.
* `Step.write_tells_parts` — steps are written alike if and only if all their parts look the same.
-/

namespace CiPipeline

namespace Text

variable {key t u rest rest' : Text} {keys ends texts others : List Text}

def Word (t : Text) : Prop := t ≠ [] ∧ t.all Char.isAlpha = true

instance (t : Text) : Decidable (Word t) := inferInstanceAs (Decidable (_ ∧ _))

theorem Word.notMem (h : Word t) {c : Char} (hc : c.isAlpha = false) : c ∉ t := by
  intro hmem
  rw [List.all_eq_true.mp h.2 c hmem] at hc
  cases hc

theorem Word.notMem_append (h : Word t) {c : Char} (hc : c.isAlpha = false) (hu : c ∉ u) :
    c ∉ t ++ u := by
  rw [List.mem_append, not_or]
  exact ⟨h.notMem hc, hu⟩

theorem Word.exists_cons (h : Word t) : ∃ c more, t = c :: more ∧ c ≠ ' ' ∧ c ≠ '\n' := by
  cases t with
  | nil => exact absurd rfl h.1
  | cons c more =>
    have hletter := List.all_eq_true.mp h.2 c List.mem_cons_self
    refine ⟨c, more, rfl, ?_, ?_⟩
    · rintro rfl
      cases hletter
    · rintro rfl
      cases hletter

/-- The text starts with one of the keys, and a colon behind it. -/
def Keyed (keys : List Text) (t : Text) : Prop :=
  ∃ key ∈ keys, Word key ∧ ∃ more, t = key ++ ':' :: more

theorem Keyed.mono (h : Keyed keys t) (hsubset : keys ⊆ ends) : Keyed ends t := by
  obtain ⟨key, hmem, hkey⟩ := h
  exact ⟨key, hsubset hmem, hkey⟩

theorem not_keyed (hword : Word key) (hfresh : key ∉ keys) (more : Text) :
    ¬ Keyed keys (key ++ ':' :: more) := by
  rintro ⟨other, hother, hotherWord, more', htext⟩
  have hcolon : (':' : Char).isAlpha = false := by decide
  obtain ⟨rfl, -⟩ := append_cons_inj (hword.notMem hcolon) (hotherWord.notMem hcolon) htext
  exact hfresh hother

theorem Keyed.exists_lines (h : Keyed keys t) :
    ∃ first more, lines t = first :: more ∧ solidHeading 0 first = true := by
  obtain ⟨key, -, hword, behind, rfl⟩ := h
  obtain ⟨c, letters, rfl, hspace, hnewline⟩ := hword.exists_cons
  obtain ⟨first, more, hlines⟩ := Text.exists_lines (letters ++ ':' :: behind)
  exact ⟨c :: first, more, lines_cons hnewline hlines, solidHeading_cons hspace first⟩

/-- The key keeps the first line from being blank. -/
theorem Keyed.clearBlank (h : Keyed keys t) : Keyed keys (clearBlank t) := by
  obtain ⟨key, hmem, hword, more, rfl⟩ := h
  refine ⟨key, hmem, hword, clearFrom none more, ?_⟩
  have hflat : '\n' ∉ key := hword.notMem (by decide)
  obtain ⟨c, letters, rfl, hspace, hnewline⟩ := hword.exists_cons
  rw [List.mem_cons, not_or] at hflat
  rw [Text.clearBlank, List.cons_append, clearFrom, if_neg hspace, if_neg hnewline,
    clearFrom_none_append hflat.2, clearFrom, if_neg (by decide)]
  rfl

/-! ## Parts -/

/-- A line that starts with the key at the margin, and no other line there. -/
structure Filled (key t : Text) : Prop where
  keyed : ∃ more, t = key ++ ':' :: more
  tidy : Tidy t
  head : ∃ head, outline 0 t = [head]

/-- What may be left out. -/
def Part (key t : Text) : Prop := t = [] ∨ Filled key t

theorem Filled.ne_nil (h : Filled key t) : t ≠ [] := by
  obtain ⟨more, rfl⟩ := h.keyed
  simp

/-- Each part that is there ends its line. -/
def partLines (texts : List Text) : Text := texts.flatMap (endedBy "\n")

theorem partLines_cons (t : Text) (texts : List Text) :
    partLines (t :: texts) = endedBy "\n" t ++ partLines texts := rfl

theorem endedBy_newline (ht : t ≠ []) (u : Text) : endedBy "\n" t ++ u = t ++ '\n' :: u := by
  cases t with
  | nil => exact absurd rfl ht
  | cons c t =>
    rw [endedBy, List.append_assoc]
    rfl

theorem clearBlank_partLines (hparts : List.Forall₂ Part keys texts) (u : Text) :
    clearBlank (partLines texts ++ u) = partLines texts ++ clearBlank u := by
  induction hparts with
  | nil => rfl
  | @cons key t keys texts hpart _ ih =>
    rw [partLines_cons, List.append_assoc, List.append_assoc]
    rcases hpart with rfl | ⟨⟨more, rfl⟩, htidy, -⟩
    · exact ih
    · rw [endedBy_newline (by simp), endedBy_newline (by simp), clearBlank_append_newline, ih,
        clearBlank_of_tidy htidy]

/-- What starts with one of the keys behind the parts, or with that of a part. -/
theorem keyed_partLines (hparts : List.Forall₂ Part keys texts) (hwords : ∀ key ∈ keys, Word key)
    (hrest : Keyed ends rest) : Keyed (keys ++ ends) (partLines texts ++ rest) := by
  induction hparts with
  | nil => exact hrest
  | @cons key t keys texts hpart _ ih =>
    rw [List.forall_mem_cons] at hwords
    rw [partLines_cons, List.append_assoc]
    rcases hpart with rfl | ⟨⟨more, rfl⟩, -⟩
    · exact (ih hwords.2).mono (List.subset_cons_self key _)
    · refine ⟨key, List.mem_cons_self, hwords.1, more ++ '\n' :: (partLines texts ++ rest), ?_⟩
      rw [endedBy_newline (by simp), List.append_assoc]
      rfl

theorem Filled.exists_lines (h : Filled key t) (hword : Word key) :
    ∃ first more, lines t = first :: more ∧ ∀ line ∈ more, solidHeading 0 line = false := by
  obtain ⟨behind, rfl⟩ := h.keyed
  obtain ⟨head, houtline⟩ := h.head
  have hkeyed : Keyed [key] (key ++ ':' :: behind) :=
    ⟨key, List.mem_singleton_self key, hword, behind, rfl⟩
  obtain ⟨first, more, hlines, hfirst⟩ := hkeyed.exists_lines
  refine ⟨first, more, hlines, ?_⟩
  rw [outline, hlines, List.filter_cons, if_pos hfirst, List.cons.injEq,
    List.filter_eq_nil_iff] at houtline
  simpa using houtline.2

theorem Keyed.head?_lines (h : Keyed keys t) :
    ∀ line ∈ (lines t).head?, solidHeading 0 line = true := by
  obtain ⟨first, more, hlines, hfirst⟩ := h.exists_lines
  rw [hlines]
  rintro line ⟨rfl⟩
  exact hfirst

/-- A part goes on up to the next line at the margin. -/
theorem filled_append_inj (hword : Word key) (ht : Filled key t) (hu : Filled key u)
    (hrest : Keyed ends rest) (hrest' : Keyed ends rest')
    (h : t ++ '\n' :: rest = u ++ '\n' :: rest') : t = u ∧ rest = rest' := by
  obtain ⟨first, more, ht, hmore⟩ := ht.exists_lines hword
  obtain ⟨first', more', hu, hmore'⟩ := hu.exists_lines hword
  have hlines : first :: (more ++ lines rest) = first' :: (more' ++ lines rest') := by
    rw [← List.cons_append, ← List.cons_append, ← ht, ← hu, ← lines_append_newline,
      ← lines_append_newline, h]
  obtain ⟨hfirsts, hbehind⟩ := List.cons.inj hlines
  have hmores : more = more' := by
    rw [← takeWhile_append_heading hmore hrest.head?_lines,
      ← takeWhile_append_heading hmore' hrest'.head?_lines, hbehind]
  have htexts : t = u := by
    apply lines_injective
    rw [ht, hu, hfirsts, hmores]
  rw [htexts] at h
  exact ⟨htexts, (List.cons.inj (List.append_cancel_left h)).2⟩

/-- No part can be taken for another one that is left out, since the keys come in one order. -/
theorem parts_append_inj (hparts : List.Forall₂ Part keys texts)
    (hothers : List.Forall₂ Part keys others) (hwords : ∀ key ∈ keys, Word key)
    (hfresh : (keys ++ ends).Nodup) (hrest : Keyed ends rest) (hrest' : Keyed ends rest')
    (h : partLines texts ++ rest = partLines others ++ rest') : texts = others ∧ rest = rest' := by
  induction hparts generalizing others with
  | nil =>
    cases hothers
    exact ⟨rfl, h⟩
  | @cons key t keys texts ht hparts ih =>
    obtain _ | ⟨hu, hothers⟩ := hothers
    rename_i u others
    rw [List.forall_mem_cons] at hwords
    rw [List.cons_append, List.nodup_cons] at hfresh
    have hbehind := keyed_partLines hparts hwords.2 hrest
    have hbehind' := keyed_partLines hothers hwords.2 hrest'
    rw [partLines_cons, partLines_cons, List.append_assoc, List.append_assoc] at h
    rcases ht with rfl | ht
    · rcases hu with rfl | hu
      · obtain ⟨rfl, hrests⟩ := ih hothers hwords.2 hfresh.2 h
        exact ⟨rfl, hrests⟩
      · obtain ⟨more, rfl⟩ := hu.keyed
        rw [endedBy_newline hu.ne_nil, List.append_assoc] at h
        exact absurd (h ▸ hbehind) (not_keyed hwords.1 hfresh.1 _)
    · rcases hu with rfl | hu
      · obtain ⟨more, rfl⟩ := ht.keyed
        rw [endedBy_newline ht.ne_nil, List.append_assoc] at h
        exact absurd (h ▸ hbehind') (not_keyed hwords.1 hfresh.1 _)
      · rw [endedBy_newline ht.ne_nil, endedBy_newline hu.ne_nil] at h
        obtain ⟨rfl, hbehinds⟩ := filled_append_inj hwords.1 ht hu hbehind hbehind' h
        obtain ⟨rfl, hrests⟩ := ih hothers hwords.2 hfresh.2 hbehinds
        exact ⟨rfl, hrests⟩

end Text

namespace Block

theorem part_write {title t : Text} {fields : Fields String} (hword : Text.Word title)
    (h : write title fields = .ok t) : Text.Part title t := by
  cases hentries : fields.entries with
  | nil =>
    rw [write_of_nil hentries] at h
    cases h
    exact .inl rfl
  | cons field others =>
    obtain ⟨-, rfl⟩ := write_of_cons hentries h
    have htext (inner : Text) : title ++ ":\n" ++ inner = (title ++ [':']) ++ '\n' :: inner := by
      simp
    have hflat : '\n' ∉ title ++ [':'] := hword.notMem_append (by decide) (by decide)
    have hspace : ' ' ∉ title ++ ":\n".toList := hword.notMem_append (by decide) (by decide)
    obtain ⟨c, letters, rfl, hmargin, -⟩ := hword.exists_cons
    refine .inr ⟨⟨'\n' :: Text.indent 1 (written field ++ others.flatMap lined), ?_⟩,
      Text.tidy_append hspace (Text.tidy_indent 1 _), c :: letters ++ [':'], ?_⟩
    · rw [htext, List.append_assoc]
      rfl
    · rw [htext, Text.outline_append_newline, Text.outline_indent_of_lt (by decide),
        Text.outline_of_flat hflat rfl hmargin, List.append_nil]

end Block

namespace Step

/-- A value behind its key, or nothing. -/
def part (key : Text) : Option String → Text
  | none => []
  | some value => key ++ ':' :: ' ' :: Scalar.write value

theorem part_of_value {key : Text} (hword : Text.Word key) (value : Option String) :
    Text.Part key (part key value) := by
  cases value with
  | none => exact .inl rfl
  | some value =>
    have hflat : '\n' ∉ key ++ [':', ' '] := hword.notMem_append (by decide) (by decide)
    have htext : part key (some value) = (key ++ [':', ' ']) ++ Scalar.write value := by
      simp [part]
    obtain ⟨c, letters, rfl, hmargin, -⟩ := hword.exists_cons
    have hsolid : Text.blank (c :: letters ++ [':', ' ']) = false := by simp [Text.blank]
    refine .inr ⟨⟨' ' :: Scalar.write value, rfl⟩, ?_, ?_⟩
    · rw [htext]
      exact Scalar.tidy_append_write hflat hsolid value
    · rw [htext]
      exact ⟨_, Scalar.outline_append_write (by decide) hflat rfl hmargin value⟩

theorem line_eq (key : Text) (value : Option String) :
    line key value = Text.endedBy "\n" (part key value) := by
  cases value with
  | none => rfl
  | some value =>
    have hne : part key (some value) ≠ [] := by simp [part]
    have hline := Text.endedBy_newline hne []
    rw [List.append_nil] at hline
    rw [hline, line, part]
    simp

/-- Both there and alike, or both left out. -/
def Resembles : Option String → Option String → Prop :=
  Option.Rel fun value other : String => Scalar.Alike value other

theorem part_eq_iff {key : Text} {value other : Option String} :
    part key value = part key other ↔ Resembles value other := by
  cases value with
  | none =>
    cases other with
    | none => exact ⟨fun _ => .none, fun _ => rfl⟩
    | some other => exact ⟨fun h => by simp [part] at h, fun h => nomatch h⟩
  | some value =>
    cases other with
    | none => exact ⟨fun h => by simp [part] at h, fun h => nomatch h⟩
    | some other =>
      rw [part, part, List.append_cancel_left_eq, List.cons.injEq, List.cons.injEq, eq_self,
        eq_self, true_and, true_and, Scalar.write_eq_write_iff]
      exact ⟨fun h => Option.Rel.some h, fun h => by cases h; assumption⟩

def partKeys : List Text := ["name", "id", "if", "env"]

def actionKeys : List Text := ["shell", "run", "uses"]

/-- What stands before the action, with the text of the environment. -/
def parts (step : Step) (env : Text) : List Text :=
  [part "name" step.name, part "id" step.id, part "if" step.cond, env]

theorem parts_of_step {step : Step} {env : Text} (h : Block.write "env" step.env = .ok env) :
    List.Forall₂ Text.Part partKeys (step.parts env) :=
  .cons (part_of_value (by decide) step.name)
    (.cons (part_of_value (by decide) step.id)
      (.cons (part_of_value (by decide) step.cond) (.cons (Block.part_write (by decide) h) .nil)))

theorem keyed_action {action : Action} {buildTool : String} {declareShell : Bool} {t : Text}
    (h : action.write buildTool declareShell = .ok t) : Text.Keyed actionKeys t := by
  have hkeyed (key : Text) (hmem : key ∈ actionKeys) (hword : Text.Word key) (more : Text) :
      Text.Keyed actionKeys (key ++ ':' :: more) := ⟨key, hmem, hword, more, rfl⟩
  have hscript (script : Text) :
      Text.Keyed actionKeys (Action.shellLine declareShell ++ "run: " ++ script) := by
    cases declareShell with
    | true => exact hkeyed "shell" (by decide) (by decide) _
    | false => exact hkeyed "run" (by decide) (by decide) _
  cases action with
  | run commands =>
    cases h
    exact hscript _
  | sbt commands =>
    cases h
    exact hscript _
  | use owner repo ref params =>
    rw [Action.write] at h
    split at h
    · cases h
    · cases h
      simp only [List.append_assoc]
      exact hkeyed "uses" (by decide) (by decide) _
  | unrecognised shown => cases h

/-! ## Items -/

/-- A body one level in, with a dash in the first column. -/
def item (body : Text) : Text := '-' :: (Text.indent 1 body).drop 1

theorem exists_of_write {step : Step} {buildTool : String} {declareShell : Bool} {t : Text}
    (h : step.write buildTool declareShell = .ok t) :
    ∃ env action, Block.write "env" step.env = .ok env ∧
      step.action.write buildTool declareShell = .ok action ∧
      t = item (Text.partLines (step.parts env) ++ action) := by
  obtain ⟨body, hbody, rfl⟩ := exists_of_map_ok h
  rw [Step.body] at hbody
  split at hbody
  · cases hbody
  · rename_i env henv
    split at hbody
    · cases hbody
    · rename_i action haction
      cases hbody
      refine ⟨env, action, henv, haction, ?_⟩
      rw [item, line_eq, line_eq, line_eq]
      simp [Text.partLines, parts]

section

variable {keys : List Text} {t u : Text}

theorem exists_lines_indent (h : Text.Keyed keys t) :
    ∃ inner first, Text.indent 1 t = ' ' :: inner ∧
      Text.lines inner = (' ' :: first) :: (Text.lines t).tail.map (Text.indentLine 2) := by
  obtain ⟨first, more, hlines, hsolid⟩ := h.exists_lines
  have hblank : Text.blank first = false := by
    rw [Text.solidHeading, Bool.and_eq_true, Bool.not_eq_true'] at hsolid
    exact hsolid.1
  have hindent : Text.lines (Text.indent 1 t) =
      (' ' :: ' ' :: first) :: more.map (Text.indentLine 2) := by
    rw [Text.lines_indent, hlines, List.map_cons, Text.indentLine_of_not_blank hblank]
    rfl
  obtain ⟨inner, htext, hinner⟩ := Text.exists_cons_of_lines hindent
  exact ⟨inner, first, htext, by rw [hlines]; exact hinner⟩

/-- The dash takes the place of a space, whatever the body. -/
theorem item_eq_item_iff (ht : Text.Keyed keys t) (hu : Text.Keyed keys u) :
    item t = item u ↔ Text.clearBlank t = Text.clearBlank u := by
  obtain ⟨inner, -, ht, -⟩ := exists_lines_indent ht
  obtain ⟨inner', -, hu, -⟩ := exists_lines_indent hu
  have hiff : Text.indent 1 t = Text.indent 1 u ↔ Text.clearBlank t = Text.clearBlank u :=
    Text.indent_eq_indent_iff
  rw [← hiff, item, item, ht, hu]
  simp

theorem lines_item (h : Text.Keyed keys t) :
    ∃ first more, Text.lines (item t) = ('-' :: ' ' :: first) :: more ∧
      ∀ line ∈ more, line = [] ∨ [' ', ' '] <+: line := by
  obtain ⟨inner, first, htext, hinner⟩ := exists_lines_indent h
  refine ⟨first, (Text.lines t).tail.map (Text.indentLine 2), ?_, ?_⟩
  · rw [item, htext]
    exact Text.lines_cons (by decide) hinner
  · intro line hline
    obtain ⟨unindented, -, rfl⟩ := List.mem_map.mp hline
    cases hblank : Text.blank unindented with
    | true => exact .inl (Text.indentLine_of_blank hblank 2)
    | false =>
      rw [Text.indentLine_of_not_blank hblank]
      exact .inr (List.prefix_append [' ', ' '] unindented)

end

/-! ## Steps -/

/-- Two steps that cannot be told apart, part by part, each in a job of its own. -/
structure SameParts (buildTool otherTool : String) (declareShell otherShell : Bool)
    (step other : Step) : Prop where
  name : Resembles step.name other.name
  id : Resembles step.id other.id
  cond : Resembles step.cond other.cond
  env : Block.write "env" step.env = Block.write "env" other.env
  action : ∃ t u, step.action.write buildTool declareShell = .ok t ∧
    other.action.write otherTool otherShell = .ok u ∧ Text.clearBlank t = Text.clearBlank u

variable {buildTool otherTool : String} {declareShell otherShell : Bool} {step other : Step}

theorem parts_eq_parts_iff {env env' : Text} :
    step.parts env = other.parts env' ↔
      Resembles step.name other.name ∧ Resembles step.id other.id ∧
        Resembles step.cond other.cond ∧ env = env' := by
  simp only [parts, List.cons.injEq, part_eq_iff, and_true]

/-- The text of a step tells its parts and its action, as far as the spaces of blank lines do not
matter; and it is one item of a sequence, with nothing else below the dash. -/
theorem write_tells_parts {t u : Text} (h : step.write buildTool declareShell = .ok t)
    (h' : other.write otherTool otherShell = .ok u) :
    (t = u ↔ SameParts buildTool otherTool declareShell otherShell step other) ∧
    ∃ first more, Text.lines t = ('-' :: ' ' :: first) :: more ∧
      ∀ line ∈ more, line = [] ∨ [' ', ' '] <+: line := by
  obtain ⟨env, action, henv, haction, rfl⟩ := exists_of_write h
  obtain ⟨env', action', henv', haction', rfl⟩ := exists_of_write h'
  have hparts := parts_of_step henv
  have hparts' := parts_of_step henv'
  have hwords : ∀ key ∈ partKeys, Text.Word key := by decide
  have hkeyed := keyed_action haction
  have hkeyed' := keyed_action haction'
  have hbody := Text.keyed_partLines hparts hwords hkeyed
  have hbody' := Text.keyed_partLines hparts' hwords hkeyed'
  refine ⟨?_, lines_item hbody⟩
  rw [item_eq_item_iff hbody hbody', Text.clearBlank_partLines hparts,
    Text.clearBlank_partLines hparts']
  constructor
  · intro heq
    obtain ⟨hsame, hactions⟩ := Text.parts_append_inj hparts hparts' hwords (by decide)
      hkeyed.clearBlank hkeyed'.clearBlank heq
    obtain ⟨hname, hid, hcond, rfl⟩ := parts_eq_parts_iff.mp hsame
    exact ⟨hname, hid, hcond, henv.trans henv'.symm, action, action', haction, haction', hactions⟩
  · rintro ⟨hname, hid, hcond, henvs, text, text', htext, htext', hactions⟩
    rw [henv, henv', Except.ok.injEq] at henvs
    rw [haction, Except.ok.injEq] at htext
    rw [haction', Except.ok.injEq] at htext'
    subst htext htext'
    rw [parts_eq_parts_iff.mpr ⟨hname, hid, hcond, henvs⟩, hactions]

/-- A name that goes on like the next parts of a step. -/
def disguised : Step where
  action := .sbt ["test"]
  name := some "Test\n  \nid: test\nrun: make\n"
  env := .ofList [("SBT_OPTS", "-J-Xmx2g #")]

/-- The same with a shell command in the place of that of the build tool, and no spaces in the blank
line. -/
def disguisedScript : Step :=
  { disguised with
    action := .run ["sbt ++" ++ matrixScala ++ " test"]
    name := some "Test\n\nid: test\nrun: make\n" }

theorem disguised_tells_parts :
    (∃ t, disguised.write "sbt" true = .ok t ∧ disguisedScript.write "make" true = .ok t) ∧
    SameParts "sbt" "make" true true disguised disguisedScript := by
  have hsame : disguised.write "sbt" true = disguisedScript.write "make" true := by
    decide +kernel
  obtain ⟨t, ht⟩ : ∃ t, disguised.write "sbt" true = .ok t :=
    exists_ok_of_isOk (by decide +kernel)
  rw [← hsame]
  exact ⟨⟨t, ht, ht⟩, (write_tells_parts ht (hsame ▸ ht)).1.mp rfl⟩

end Step
end CiPipeline
