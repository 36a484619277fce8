import CiPipeline.Proofs.Lines
import CiPipeline.Step

/-!
# CiPipeline.Proofs.CommandWords

Which build tool commands reach the build tool as the words of its command line.

* `CommandLine.cut?`   — a line cut at each space that stands outside of quotes.
* `CommandLine.words?` — the words of a line: what is not empty between the cuts, without quotes.
* `cut?_append`        — a text that no cut is made in.
* `cut?_joined`        — texts with spaces between them are cut at these spaces alone.
* `words?_commandLine` — commands without quotes come out as they are, but for empty ones.
* `Step.commandLine_intact_iff` — all of them do if and only if none is empty or holds a quote.
-/

namespace CiPipeline
namespace CommandLine

/-- A text in front of the first piece. -/
def lead (t : Text) (pieces : Text × List Text) : Text × List Text := (t ++ pieces.1, pieces.2)

/-- The pieces between the spaces outside of quotes, the first one apart, read on from a place that
is inside of quotes or not. A line that leaves a quote open has none. -/
def cut? : Bool → Text → Option (Text × List Text)
  | inside, [] => if inside then none else some ([], [])
  | inside, c :: rest =>
    if c = '\'' then (cut? (!inside) rest).map (lead [c])
    else if c = ' ' ∧ inside = false then
      (cut? false rest).map fun pieces => ([], pieces.1 :: pieces.2)
    else (cut? inside rest).map (lead [c])

def unquoted (piece : Text) : Text := piece.filter (· ≠ '\'')

/-- Several spaces in a row count once, and those at the ends of the line not at all. -/
def words? (line : Text) : Option (List Text) :=
  (cut? false line).map fun pieces => ((pieces.1 :: pieces.2).filter (· ≠ [])).map unquoted

/-! ## Cuts -/

theorem lead_empty (t : Text) (pieces : List Text) : lead t ([], pieces) = (t, pieces) := by
  rw [lead, List.append_nil]

theorem cut?_quote (inside : Bool) (rest : Text) :
    cut? inside ('\'' :: rest) = (cut? (!inside) rest).map (lead ['\'']) := by
  rw [cut?, if_pos rfl]

theorem cut?_space (rest : Text) :
    cut? false (' ' :: rest) = (cut? false rest).map fun pieces => ([], pieces.1 :: pieces.2) := by
  rw [cut?, if_neg (by decide), if_pos ⟨rfl, rfl⟩]

theorem map_lead_lead (t u : Text) (cuts : Option (Text × List Text)) :
    (cuts.map (lead u)).map (lead t) = cuts.map (lead (t ++ u)) := by
  rw [Option.map_map]
  congr 1
  funext pieces
  exact congrArg (·, pieces.2) (List.append_assoc t u pieces.1).symm

/-- Only a quote ends what quotes keep together. -/
theorem cut?_append {inside : Bool} {t : Text} (hquote : '\'' ∉ t)
    (hspace : inside = false → ' ' ∉ t) (rest : Text) :
    cut? inside (t ++ rest) = (cut? inside rest).map (lead t) := by
  induction t with
  | nil =>
    have hlead : lead [] = id := rfl
    rw [List.nil_append, hlead, Option.map_id]
    rfl
  | cons c t ih =>
    rw [List.mem_cons, not_or] at hquote
    have hstay : ¬ (c = ' ' ∧ inside = false) := by
      rintro ⟨rfl, houtside⟩
      exact hspace houtside List.mem_cons_self
    have hrest : inside = false → ' ' ∉ t := fun houtside hmem =>
      hspace houtside (List.mem_cons_of_mem c hmem)
    rw [List.cons_append, cut?, if_neg (Ne.symm hquote.1), if_neg hstay, ih hquote.2 hrest,
      map_lead_lead]
    rfl

/-- A word of the command line is in one piece, with its quotes if it has any. -/
theorem cut?_commandWord {command : String} (h : '\'' ∉ command.toList) (rest : Text) :
    cut? false (Step.commandWord command ++ rest) =
      (cut? false rest).map (lead (Step.commandWord command)) := by
  rw [Step.commandWord]
  split
  · have hclose : cut? true (command.toList ++ '\'' :: rest) =
        ((cut? false rest).map (lead ['\''])).map (lead command.toList) := by
      rw [cut?_append h (by simp), cut?_quote]
      rfl
    rw [List.append_assoc, List.cons_append, cut?_quote]
    show Option.map _ (cut? true (command.toList ++ '\'' :: rest)) = _
    rw [hclose, map_lead_lead, map_lead_lead]
    rfl
  · rename_i hspace
    exact cut?_append h (fun _ => by simpa using hspace) rest

/-- The spaces between the words of a command line are the only ones it is cut at. -/
theorem cut?_joined {first : String} {others : List String}
    (h : ∀ command ∈ first :: others, '\'' ∉ command.toList) :
    cut? false (Text.joined " " ((first :: others).map Step.commandWord)) =
      some (Step.commandWord first, others.map Step.commandWord) := by
  induction others generalizing first with
  | nil =>
    have hfirst := cut?_commandWord (h first List.mem_cons_self) []
    rw [List.append_nil] at hfirst
    rw [List.map_singleton, Text.joined_singleton, hfirst]
    exact congrArg some (lead_empty _ [])
  | cons second others ih =>
    rw [List.forall_mem_cons] at h
    have hspace (rest : Text) : " ".toList ++ rest = ' ' :: rest := rfl
    rw [List.map_cons, List.map_cons, Text.joined_cons_cons, List.append_assoc, hspace,
      cut?_commandWord h.1, ← List.map_cons, cut?_space, ih h.2]
    exact congrArg some (lead_empty _ _)

/-! ## Words -/

theorem unquoted_of_notMem {t : Text} (h : '\'' ∉ t) : unquoted t = t := by
  rw [unquoted, List.filter_eq_self]
  intro c hc
  have hne : c ≠ '\'' := by
    rintro rfl
    exact h hc
  simpa using hne

theorem quote_notMem_unquoted (t : Text) : '\'' ∉ unquoted t := by
  simp [unquoted]

theorem unquoted_commandWord {command : String} (h : '\'' ∉ command.toList) :
    unquoted (Step.commandWord command) = command.toList := by
  rw [Step.commandWord]
  split
  · have hquote : unquoted ('\'' :: command ++ ['\'']) = unquoted command := by
      simp [unquoted]
    rw [hquote, unquoted_of_notMem h]
  · exact unquoted_of_notMem h

theorem commandWord_eq_nil_iff {command : String} :
    Step.commandWord command = [] ↔ command = "" := by
  rw [Step.commandWord]
  split
  · rename_i hspace
    constructor
    · intro h
      cases h
    · rintro rfl
      cases hspace
  · exact String.toList_eq_nil_iff

/-- No word comes out with a quote in it. -/
theorem quote_notMem_of_words? {line : Text} {words : List Text} (h : words? line = some words) :
    ∀ word ∈ words, '\'' ∉ word := by
  obtain ⟨pieces, -, rfl⟩ := Option.map_eq_some_iff.mp h
  intro word hword
  obtain ⟨piece, -, rfl⟩ := List.mem_map.mp hword
  exact quote_notMem_unquoted piece

/-- An empty command leaves nothing but one more space. -/
theorem words?_commandLine {commands : List String}
    (h : ∀ command ∈ commands, '\'' ∉ command.toList) :
    words? (Step.commandLine commands) =
      some ((commands.filter (· ≠ "")).map String.toList) := by
  cases commands with
  | nil => rfl
  | cons first others =>
    have hkept : (first :: others).filter ((· ≠ []) ∘ Step.commandWord) =
        (first :: others).filter (· ≠ "") := by
      apply List.filter_congr
      intro command _
      simp [commandWord_eq_nil_iff]
    have hwords : ((first :: others).filter (· ≠ "")).map (unquoted ∘ Step.commandWord) =
        ((first :: others).filter (· ≠ "")).map String.toList := by
      apply List.map_congr_left
      intro command hcommand
      exact unquoted_commandWord (h command (List.mem_filter.mp hcommand).1)
    rw [words?, Step.commandLine, cut?_joined h, ← hwords, ← List.map_map, ← hkept,
      ← List.filter_map]
    rfl

end CommandLine

/-- The commands of a build tool step are the words of its command line if and only if each of them
holds something, and none of them a quote. -/
theorem Step.commandLine_intact_iff (commands : List String) :
    CommandLine.words? (commandLine commands) = some (commands.map String.toList) ↔
      ∀ command ∈ commands, command ≠ "" ∧ '\'' ∉ command.toList := by
  constructor
  · intro hwords
    have hquote : ∀ command ∈ commands, '\'' ∉ command.toList := fun command hcommand =>
      CommandLine.quote_notMem_of_words? hwords _ (List.mem_map_of_mem hcommand)
    rw [CommandLine.words?_commandLine hquote, Option.some_inj] at hwords
    have hfilter : commands.filter (· ≠ "") = commands :=
      (List.map_inj_right fun _ _ => String.toList_inj.mp).mp hwords
    intro command hcommand
    refine ⟨?_, hquote command hcommand⟩
    rw [List.filter_eq_self] at hfilter
    simpa using hfilter command hcommand
  · intro h
    have hfilter : commands.filter (· ≠ "") = commands := by
      rw [List.filter_eq_self]
      intro command hcommand
      simpa using (h command hcommand).1
    rw [CommandLine.words?_commandLine fun command hcommand => (h command hcommand).2, hfilter]

/-- The quotes of two commands make one word of them. -/
example : CommandLine.words? (Step.commandLine ["it's", "that's", "a b"]) =
    some ["its thats".toList, "a b".toList] := by
  decide

end CiPipeline
