import CiPipeline.Proofs.Composition
import CiPipeline.Proofs.Heading

/-!
# CiPipeline.Proofs.JobOutline

The outline of one job: the lines of its text that a reader takes for its id and its fields.

* `Job.blocks`        — the parts of the body that stand under each other.
* `Job.headings`      — the outline as the description of the job gives it.
* `Job.SingleLine`    — what has to be on one line for that: names that stand in the text without
                        being written as values.
* `Job.outline_write` — the text of a job shows that outline, moved to the left.
-/

namespace CiPipeline

namespace Block

/-- A block is its title, and the rest of it further to the right. -/
theorem write_eq_ok {title : Text} {fields : Fields String} {block : Text}
    (h : write title fields = .ok block) :
    (fields.isEmpty = true ∧ block = []) ∨
      (fields.isEmpty = false ∧ ∃ inner, block = title ++ ":\n" ++ Text.indent 1 inner) := by
  rw [write] at h
  cases hempty : fields.isEmpty with
  | true =>
    rw [hempty, if_pos rfl] at h
    cases h
    exact .inl ⟨rfl, rfl⟩
  | false =>
    rw [hempty, if_neg (by decide)] at h
    split at h
    · cases h
    · cases h
      exact .inr ⟨rfl, _, rfl⟩

end Block

namespace Job

/-! ## One job -/

def needsBlock (needs : List String) : List Text :=
  if needs.isEmpty then [] else ["needs: [" ++ Text.joined ", " (needs.map String.toList) ++ "]"]

def condBlock : Option String → List Text
  | none => []
  | some cond => ["if: " ++ Scalar.write cond]

def axesBlock (axes : Fields (List String)) : List Text :=
  if axes.isEmpty then [] else [Text.indent 2 (Text.joined "\n" (axes.entries.map axis))]

def envBlock : Text → List Text
  | [] => []
  | c :: rest => [c :: rest]

/-- What the body of a job consists of, one under the other. -/
def blocks (job : Job) (env : Text) : List Text :=
  let matrix : List Text :=
    ["strategy:", "  matrix:", "    os: " ++ Scalar.flowList job.oses,
      "    scala: " ++ Scalar.flowList job.scalas, "    java: " ++ Scalar.flowList job.javas]
  let runner : Text := "runs-on: " ++ matrixOs
  let last : Text := "steps:"
  needsBlock job.needs ++ condBlock job.cond ++ matrix ++ axesBlock job.matrixAdds ++ [runner]
    ++ envBlock env ++ [last]

theorem needsLine_eq (needs : List String) :
    needsLine needs = (needsBlock needs).flatMap ('\n' :: ·) := by
  rw [needsLine, needsBlock]
  split
  · rfl
  · rw [List.flatMap_singleton]
    rfl

theorem condLine_eq (cond : Option String) :
    condLine cond = (condBlock cond).flatMap ('\n' :: ·) := by
  cases cond with
  | none => rfl
  | some cond =>
    show "\nif: " ++ Scalar.write cond = [("if: " ++ Scalar.write cond : Text)].flatMap ('\n' :: ·)
    simp

theorem addedAxes_eq (axes : Fields (List String)) :
    addedAxes axes = (axesBlock axes).flatMap ('\n' :: ·) := by
  rw [addedAxes, axesBlock]
  split
  · rfl
  · rw [List.flatMap_singleton]
    rfl

theorem ledBy_eq (env : Text) : Text.ledBy "\n" env = (envBlock env).flatMap ('\n' :: ·) := by
  cases env with
  | nil => rfl
  | cons c rest => simp only [envBlock, Text.ledBy, List.flatMap_singleton]; rfl

theorem head_append (job : Job) (env u : Text) :
    job.head env ++ u =
      Text.joined ['\n'] (("name: " ++ Scalar.write job.name) :: (job.blocks env ++ [u])) := by
  -- the equation of `head` is too long to be rewritten with
  unfold head
  rw [Text.joined_cons, needsLine_eq, condLine_eq, addedAxes_eq, ledBy_eq]
  simp [blocks]

def condHeading : Option String → List Text
  | none => []
  | some cond => ["if: " ++ Scalar.opening cond]

def envHeading (env : Fields String) : List Text := if env.isEmpty then [] else ["env:"]

/-- The lines of a job that name its fields. -/
def fieldHeadings (job : Job) : List Text :=
  let name : Text := "name: " ++ Scalar.opening job.name
  let runner : List Text := ["strategy:", "runs-on: " ++ matrixOs]
  let last : Text := "steps:"
  [name] ++ needsBlock job.needs ++ condHeading job.cond ++ runner ++ envHeading job.env ++ [last]

/-- What a job adds to the outline of a document. -/
def headings (job : Job) : List Text :=
  ("  " ++ job.id ++ ":") :: job.fieldHeadings.map fun line : Text => "    " ++ line

/-- What stands in the document of a job without being written as a value has no line break. -/
structure SingleLine (job : Job) : Prop where
  id : '\n' ∉ job.id.toList
  id_start : job.id.toList.head? ≠ some ' '
  needs : ∀ need ∈ job.needs, '\n' ∉ need.toList
  oses : ∀ os ∈ job.oses, '\n' ∉ os.toList
  scalas : ∀ scala ∈ job.scalas, '\n' ∉ scala.toList
  javas : ∀ java ∈ job.javas, '\n' ∉ java.toList

variable {limit : Nat}

theorem outline_needsBlock {needs : List String} (h : ∀ need ∈ needs, '\n' ∉ need.toList) :
    (needsBlock needs).flatMap (Text.outline limit) = needsBlock needs := by
  rw [needsBlock]
  split
  · rfl
  · have hjoined : '\n' ∉ Text.joined ", " (needs.map String.toList) := by
      apply Text.newline_notMem_joined (by decide)
      intro t ht
      obtain ⟨need, hneed, rfl⟩ := List.mem_map.mp ht
      exact h need hneed
    have hflat :
        '\n' ∉ ("needs: [" ++ Text.joined ", " (needs.map String.toList) ++ "]" : Text) := by
      rw [List.mem_append, List.mem_append, not_or, not_or]
      exact ⟨⟨by decide, hjoined⟩, by decide⟩
    rw [List.flatMap_singleton]
    exact Text.outline_of_flat hflat rfl (by decide)

theorem outline_condBlock (hlimit : limit < 2) (cond : Option String) :
    (condBlock cond).flatMap (Text.outline limit) = condHeading cond := by
  cases cond with
  | none => rfl
  | some cond =>
    rw [condBlock, List.flatMap_singleton]
    exact Scalar.outline_append_write hlimit (by decide) rfl (by decide) cond

theorem outline_axesBlock (hlimit : limit < 2) (axes : Fields (List String)) :
    (axesBlock axes).flatMap (Text.outline limit) = [] := by
  rw [axesBlock]
  split
  · rfl
  · rw [List.flatMap_singleton]
    exact Text.outline_indent_of_lt (Nat.lt_trans hlimit (by decide)) _

theorem outline_envBlock (hlimit : limit < 2) {fields : Fields String} {env : Text}
    (h : Block.write "env" fields = .ok env) :
    (envBlock env).flatMap (Text.outline limit) = envHeading fields := by
  rcases Block.write_eq_ok h with ⟨hempty, rfl⟩ | ⟨hempty, inner, rfl⟩
  · rw [envHeading, hempty]
    rfl
  · have hblock : envBlock ("env" ++ ":\n" ++ Text.indent 1 inner) =
        ["env:" ++ '\n' :: Text.indent 1 inner] := rfl
    have htitle : Text.outline limit "env:" = [("env:" : Text)] :=
      Text.outline_of_flat (by decide) rfl (by decide)
    rw [hblock, List.flatMap_singleton, Text.outline_append_newline, htitle,
      Text.outline_indent_of_lt hlimit, envHeading, hempty]
    rfl

theorem outline_matrix (hlimit : limit < 2) {key rest : Text} (hkey : '\n' ∉ key)
    (hspaces : key = ' ' :: ' ' :: rest) {items : List String}
    (hitems : ∀ item ∈ items, '\n' ∉ item.toList) :
    Text.outline limit (key ++ Scalar.flowList items) = [] := by
  have hflat : '\n' ∉ key ++ Scalar.flowList items := by
    rw [List.mem_append, not_or]
    exact ⟨hkey, Scalar.newline_notMem_flowList hitems⟩
  exact Text.outline_of_two_spaces hlimit hflat (by rw [hspaces]; rfl)

/-- The body of a job shows the fields of the job and nothing else. -/
theorem outline_body (hlimit : limit < 2) {job : Job} (single : job.SingleLine) {env : Text}
    (henv : Block.write "env" job.env = .ok env) (steps : Text) :
    Text.outline limit (job.head env ++ Text.indent 1 steps) = job.fieldHeadings := by
  have hname : Text.outline limit ("name: " ++ Scalar.write job.name) =
      ["name: " ++ Scalar.opening job.name] :=
    Scalar.outline_append_write hlimit (by decide) rfl (by decide) _
  have hstrategy : Text.outline limit "strategy:" = [("strategy:" : Text)] :=
    Text.outline_of_flat (by decide) rfl (by decide)
  have hmatrix : Text.outline limit "  matrix:" = [] :=
    Text.outline_of_two_spaces hlimit (by decide) rfl
  have hoses : Text.outline limit ("    os: " ++ Scalar.flowList job.oses) = [] :=
    outline_matrix hlimit (by decide) rfl single.oses
  have hscalas : Text.outline limit ("    scala: " ++ Scalar.flowList job.scalas) = [] :=
    outline_matrix hlimit (by decide) rfl single.scalas
  have hjavas : Text.outline limit ("    java: " ++ Scalar.flowList job.javas) = [] :=
    outline_matrix hlimit (by decide) rfl single.javas
  have hrunner : Text.outline limit ("runs-on: " ++ matrixOs) =
      [("runs-on: " ++ matrixOs : Text)] :=
    Text.outline_of_flat (by decide) rfl (by decide)
  have hlast : Text.outline limit "steps:" = [("steps:" : Text)] :=
    Text.outline_of_flat (by decide) rfl (by decide)
  have hsteps : Text.outline limit (Text.indent 1 steps) = [] :=
    Text.outline_indent_of_lt hlimit steps
  rw [head_append, Text.outline_joined (by simp), blocks, fieldHeadings]
  simp only [List.flatMap_cons, List.flatMap_append, List.flatMap_nil, hname, hstrategy, hmatrix,
    hoses, hscalas, hjavas, hrunner, hlast, hsteps, outline_needsBlock single.needs,
    outline_condBlock hlimit, outline_axesBlock hlimit, outline_envBlock hlimit henv,
    List.append_nil, List.nil_append, List.cons_append, List.append_assoc]

theorem outline_id {job : Job} (single : job.SingleLine) (l : Nat) :
    Text.outline l (job.id ++ ":") = [(job.id ++ ":" : Text)] := by
  have hflat : '\n' ∉ (job.id ++ ":" : Text) := by
    rw [List.mem_append, not_or]
    exact ⟨single.id, by decide⟩
  cases hchars : job.id.toList with
  | nil => exact Text.outline_of_flat (by decide) rfl (by decide)
  | cons c rest =>
    have hc : c ≠ ' ' := by
      rintro rfl
      exact single.id_start (by rw [hchars]; rfl)
    rw [hchars] at hflat
    exact Text.outline_of_flat hflat rfl hc

/-- A job shows its id in the first column, and its fields two columns to the right of it. -/
theorem outline_write (hlimit : limit < 2) {buildTool : String} {job : Job}
    (single : job.SingleLine) {text : Text} (h : job.write buildTool = .ok text) :
    Text.outline (2 + limit) text =
      (job.id ++ ":" : Text) :: job.fieldHeadings.map fun line : Text => "  " ++ line := by
  cases henv : Block.write "env" job.env with
  | error e => rw [write_of_env_error buildTool job henv] at h; cases h
  | ok env =>
    rw [write_of_env_ok buildTool job henv] at h
    obtain ⟨steps, _, rfl⟩ := exists_of_map_ok h
    have hshape : ∀ body : Text, (job.id ++ ":\n" ++ body : Text) =
        (job.id ++ ":" : Text) ++ '\n' :: body := by
      intro body
      rw [List.append_assoc, List.append_assoc]
      rfl
    rw [hshape, Text.outline_append_newline, outline_id single, Text.outline_indent_one,
      outline_body hlimit single henv]
    rfl

end Job

end CiPipeline
