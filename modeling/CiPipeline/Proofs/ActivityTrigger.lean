import Mathlib.Data.List.Perm.Basic
import Mathlib.Data.List.Sort
import Mathlib.Data.String.Basic
import CiPipeline.Proofs.Composition
import CiPipeline.Proofs.FlowSequence

/-!
# CiPipeline.Proofs.ActivityTrigger

What a document tells of the pull request activities that trigger its workflow.

* `PullRequest.Activity.name_injective` — activities have different names.
* `bracketed_inj`             — a list of activities is known by the names in brackets.
* `sortedNames_inj`           — sorting tells activities in another order from other ones.
* `Workflow.beforeActivities`, `Workflow.afterActivities` — the document around the activities.
* `Workflow.typesLine`, `Workflow.activityLines` — the line that lists the activities, which is
                                there unless they are the standard ones.
* `write_tells_activities`    — activities with one document are the same, or all are standard.
-/

namespace CiPipeline

namespace Text

/-- A line that is not blank is moved to the right. -/
theorem indent_of_flat {level : Int} {t : Text} (hflat : '\n' ∉ t) (hblank : blank t = false) :
    indent level t = spaces (columns level) ++ t := by
  apply lines_injective
  have hmoved : '\n' ∉ spaces (columns level) ++ t := by
    rw [List.mem_append, not_or]
    exact ⟨newline_notMem_spaces _, hflat⟩
  rw [lines_indent, lines_eq_singleton hflat, List.map_singleton, indentLine_of_not_blank hblank,
    lines_eq_singleton hmoved]

end Text

namespace PullRequest.Activity

/-- The name leads back to the activity. -/
theorem find?_name (activity : Activity) :
    all.find? (fun other => other.name = activity.name) = some activity := by
  cases activity <;> decide

theorem name_injective : Function.Injective name := by
  intro activity other h
  have hfind := find?_name activity
  rw [h, find?_name other] at hfind
  exact (Option.some.inj hfind).symm

/-- A name is one plain word. -/
theorem plain_name (activity : Activity) : Scalar.isPlain activity.name.toList = true ∧
    ',' ∉ activity.name.toList ∧ '\n' ∉ activity.name.toList := by
  cases activity <;> decide

theorem write_name (activity : Activity) :
    Scalar.write activity.name.toList = activity.name.toList :=
  Scalar.write_of_plain (plain_name activity).2.2 (plain_name activity).1

/-! ## Names in brackets -/

def names (activities : List Activity) : List String := activities.map name

theorem separable_names (activities : List Activity) :
    ∀ item ∈ names activities, Scalar.Separable item.toList := by
  intro item hitem
  obtain ⟨activity, -, rfl⟩ := List.mem_map.mp hitem
  right
  intro hcomma
  exact (plain_name activity).2.1 (hcomma.subset List.mem_cons_self)

theorem flat_names (activities : List Activity) :
    ∀ item ∈ names activities, '\n' ∉ item.toList := by
  intro item hitem
  obtain ⟨activity, -, rfl⟩ := List.mem_map.mp hitem
  exact (plain_name activity).2.2

def bracketed (activities : List Activity) : Text :=
  "[" ++ Text.joined ", " (activities.map fun activity => activity.name.toList) ++ "]"

/-- Names stand in brackets as values do that need no quotes. -/
theorem bracketed_eq (activities : List Activity) :
    bracketed activities = Scalar.flowList (names activities) := by
  have hwrite : (names activities).map (fun item : String => Scalar.write item) =
      activities.map fun activity => activity.name.toList := by
    rw [names, List.map_map]
    exact List.map_congr_left fun activity _ => write_name activity
  rw [Scalar.flowList, hwrite, bracketed]

theorem newline_notMem_bracketed (activities : List Activity) : '\n' ∉ bracketed activities := by
  rw [bracketed_eq]
  exact Scalar.newline_notMem_flowList (flat_names activities)

/-- No name is empty, so that no list looks like the empty one. -/
theorem names_ne_empty (activities : List Activity) : names activities ≠ [""] := by
  intro h
  obtain ⟨activity, -, hname⟩ := List.mem_map.mp (h ▸ List.mem_singleton_self "")
  revert hname
  cases activity <;> decide

theorem bracketed_inj {activities others : List Activity}
    (h : bracketed activities = bracketed others) : activities = others := by
  rw [bracketed_eq, bracketed_eq] at h
  have hnames : names activities = names others := by
    have hsep := separable_names activities
    have hsep' := separable_names others
    have hflat := flat_names activities
    have hne := names_ne_empty activities
    have hne' := names_ne_empty others
    cases hxs : names activities with
    | nil =>
      cases hys : names others with
      | nil => rfl
      | cons y ys =>
        rw [hys] at hsep' hne'
        rw [hxs, hys, eq_comm, Scalar.flowList_cons_eq_nil hsep'] at h
        exact absurd h hne'
    | cons x xs =>
      rw [hxs] at hsep hflat hne
      cases hys : names others with
      | nil =>
        rw [hxs, hys, Scalar.flowList_cons_eq_nil hsep] at h
        exact absurd h hne
      | cons y ys =>
        rw [hys] at hsep'
        rw [hxs, hys, Scalar.flowList_cons_inj, Scalar.appended_inj hsep hsep'] at h
        exact Scalar.eq_of_alike hflat h
  exact (List.map_inj_right fun _ _ hname => name_injective hname).mp hnames

/-! ## Sorted names -/

theorem constant_injective : Function.Injective constant := by
  intro activity other h
  have hfind (a : Activity) : all.find? (fun b => b.constant = a.constant) = some a := by
    cases a <;> decide
  have hother := hfind activity
  rw [h, hfind other] at hother
  exact (Option.some.inj hother).symm

theorem insertName_eq (name : String) (names : List String) :
    insertName name names = names.orderedInsert (· ≤ ·) name := by
  induction names with
  | nil => rfl
  | cons other rest ih => rw [insertName, List.orderedInsert_cons, ih]

theorem sortedNames_eq (activities : List Activity) :
    sortedNames activities = (activities.map constant).insertionSort (· ≤ ·) :=
  congrArg (fun insert => (activities.map constant).foldr insert [])
    (funext fun name => funext fun names => insertName_eq name names)

theorem sortedLE_sortedNames (activities : List Activity) : (sortedNames activities).SortedLE := by
  rw [sortedNames_eq]
  exact List.sortedLE_insertionSort

theorem sortedNames_perm (activities : List Activity) :
    (sortedNames activities).Perm (activities.map constant) := by
  rw [sortedNames_eq]
  exact List.perm_insertionSort _ _

/-- The sorted names are the same in whatever order the activities are. -/
theorem sortedNames_inj {activities others : List Activity} :
    sortedNames activities = sortedNames others ↔ activities.Perm others := by
  constructor
  · intro h
    have hnames := (sortedNames_perm activities).symm.trans (h ▸ sortedNames_perm others)
    exact (List.map_perm_map_iff constant_injective).mp hnames
  · intro h
    have hnames := ((sortedNames_perm activities).trans (h.map constant)).trans
      (sortedNames_perm others).symm
    exact hnames.eq_of_sortedLE (sortedLE_sortedNames activities) (sortedLE_sortedNames others)

/-- The activities whose sorted names are the standard ones. -/
theorem isStandard_iff {activities : List Activity} :
    isStandard activities = true ↔ activities.Perm standard := by
  rw [isStandard, decide_eq_true_eq, sortedNames_inj]

end PullRequest.Activity

namespace Workflow

open PullRequest (Activity)

/-- The start of a document, down to the branches of the pull request trigger. -/
def beforeActivities (workflow : Workflow) : Text :=
  Text.joined "\n" (header.map String.toList) ++ "\n"
    ++ "\n"
    ++ "name: " ++ Scalar.write workflow.name ++ "\n"
    ++ "\n"
    ++ "on:\n"
    ++ "  pull_request:\n"
    ++ "    branches: " ++ Scalar.flowList workflow.branches ++ "\n"

/-- From the push trigger on, down to the line that announces the jobs. -/
def afterActivities (workflow : Workflow) (env : Text) : Text :=
  "  push:\n"
    ++ "    branches: " ++ Scalar.flowList workflow.branches ++ "\n"
    ++ "\n"
    ++ Text.endedBy "\n\n" env
    ++ "jobs:\n"

/-- The activities by name, in their order. -/
def typesLine (activities : List Activity) : Text :=
  "    types: " ++ Activity.bracketed activities ++ "\n"

/-- The standard activities go without a line, in whatever order. -/
def activityLines (activities : List Activity) : Text :=
  if activities.Perm Activity.standard then [] else typesLine activities

/-- The line of the activities, with the end of the line before it in place of its own. -/
theorem activityLine_append (activities : List Activity) (rest : Text) :
    activityLine activities ++ ("\n".toList ++ rest) =
      "\n".toList ++ (activityLines activities ++ rest) := by
  rw [activityLine, activityLines]
  by_cases h : activities.Perm Activity.standard
  · rw [if_pos h, if_pos (Activity.isStandard_iff.mpr h)]
    rfl
  · have hopen : "types: [".toList = "types: ".toList ++ "[".toList := rfl
    have hflat : '\n' ∉ "types: ".toList ++ Activity.bracketed activities := by
      rw [List.mem_append, not_or]
      exact ⟨by decide, Activity.newline_notMem_bracketed activities⟩
    have hindent : Text.indent 2 ("types: ".toList ++ Activity.bracketed activities) =
        "    types: ".toList ++ Activity.bracketed activities :=
      Text.indent_of_flat hflat rfl
    rw [if_neg h, if_neg (by rwa [Activity.isStandard_iff]), hopen]
    show "\n".toList ++ Text.indent 2 ("types: ".toList ++ Activity.bracketed activities) ++
      ("\n".toList ++ rest) = _
    unfold typesLine
    simp only [hindent, List.append_assoc]

theorem head_activities (workflow : Workflow) (activities : List Activity) (env : Text) :
    ({ workflow with activities := activities } : Workflow).head env =
      workflow.beforeActivities ++ activityLines activities ++ workflow.afterActivities env := by
  unfold head beforeActivities afterActivities
  simp only [List.append_assoc, activityLine_append]

/-! ## Documents -/

/-- Activities that are written alike are the same, or do without a line. -/
theorem activityLines_inj {activities others : List Activity} :
    activityLines activities = activityLines others ↔
      activities = others ∨
        activities.Perm Activity.standard ∧ others.Perm Activity.standard := by
  have hne (listed : List Activity) : typesLine listed ≠ [] :=
    List.append_ne_nil_of_right_ne_nil _ (List.cons_ne_nil '\n' [])
  rw [activityLines, activityLines]
  split
  · rename_i h
    split
    · rename_i h'
      simp [h, h']
    · rename_i h'
      have hdiffer : activities ≠ others := fun hsame => h' (hsame ▸ h)
      simp [h', hdiffer, (hne others).symm]
  · rename_i h
    split
    · rename_i h'
      have hdiffer : activities ≠ others := fun hsame => h (hsame ▸ h')
      simp [h, hdiffer, hne activities]
    · unfold typesLine
      rw [List.append_cancel_right_eq, List.append_cancel_left_eq]
      simp only [h, false_and, or_false]
      exact ⟨Activity.bracketed_inj, congrArg _⟩

/-- What follows the branches tells whether there are activities listed. -/
theorem push_prefix_iff (workflow : Workflow) (activities : List Activity) (env rest : Text) :
    "  push:\n".toList <+: activityLines activities ++ (workflow.afterActivities env ++ rest) ↔
      activities.Perm Activity.standard := by
  rw [activityLines]
  split
  · rename_i h
    unfold afterActivities
    simp only [List.nil_append, List.append_assoc, h, iff_true]
    exact List.prefix_append _ _
  · rename_i h
    refine iff_of_false ?_ h
    rintro ⟨more, hmore⟩
    have hthird : some 'p' = some ' ' := congrArg (fun text : Text => text[2]?) hmore
    exact absurd hthird (by decide)

theorem typesLine_prefix_iff (workflow : Workflow) (activities : List Activity) (env rest : Text) :
    typesLine activities <+: activityLines activities ++ (workflow.afterActivities env ++ rest) ↔
      ¬ activities.Perm Activity.standard := by
  rw [activityLines]
  split
  · rename_i h
    refine iff_of_false ?_ (not_not_intro h)
    rintro ⟨more, hmore⟩
    have hthird : some ' ' = some 'p' := congrArg (fun text : Text => text[2]?) hmore
    exact absurd hthird (by decide)
  · rename_i h
    simp only [h, not_false_eq_true, iff_true]
    exact List.prefix_append _ _

/-- The document with other activities. -/
theorem exists_write_activities {workflow : Workflow} {t : Text} (h : workflow.write = .ok t) :
    ∃ env rest, ∀ activities,
      ({ workflow with activities := activities } : Workflow).write =
        .ok (workflow.beforeActivities ++
          (activityLines activities ++ (workflow.afterActivities env ++ rest))) := by
  cases henv : Block.write "env" workflow.env with
  | error e =>
    rw [write_of_env_error workflow henv] at h
    cases h
  | ok env =>
    rw [write_of_env_ok workflow henv] at h
    obtain ⟨jobs, hjobs, -⟩ := exists_of_map_ok h
    refine ⟨env, Text.indent 1 (Text.joined "\n\n" jobs), fun activities => ?_⟩
    have hwrite := write_of_env_ok { workflow with activities := activities } henv
    rw [hwrite, hjobs, head_activities, ← List.append_assoc, ← List.append_assoc]
    rfl

/-- Whatever the activities are, a workflow that can be written can be written with them. Two lists
of activities make the same document if and only if they are the same, or both hold the standard
activities, each once. The line that lists them stands behind the branches of the trigger unless
they are the standard ones: then the push trigger follows at once. -/
theorem write_tells_activities {workflow : Workflow} {t : Text} (h : workflow.write = .ok t) :
    ∃ document : List Activity → Text,
      (∀ activities,
        ({ workflow with activities := activities } : Workflow).write = .ok (document activities)) ∧
      (∀ activities others, document activities = document others ↔ activities = others ∨
        activities.Perm Activity.standard ∧ others.Perm Activity.standard) ∧
      ∀ activities,
        (workflow.beforeActivities ++ "  push:\n".toList <+: document activities ↔
          activities.Perm Activity.standard) ∧
        (workflow.beforeActivities ++ typesLine activities <+: document activities ↔
          ¬ activities.Perm Activity.standard) := by
  obtain ⟨env, rest, hwrite⟩ := exists_write_activities h
  refine ⟨_, hwrite, fun activities others => ?_, fun activities => ⟨?_, ?_⟩⟩
  · rw [List.append_cancel_left_eq, List.append_cancel_right_eq]
    exact activityLines_inj
  · rw [List.prefix_append_right_inj]
    exact push_prefix_iff workflow activities env rest
  · rw [List.prefix_append_right_inj]
    exact typesLine_prefix_iff workflow activities env rest

/-- Its document has a line of activities that comes from a branch. -/
def typesBranch : Workflow where
  name := "CI"
  branches := ["main\n  types: [opened"]
  activities := Activity.standard
  env := .empty
  jobs := []

/-- The order of the standard activities is not told, one of them too many is; and that branch does
not stand for an activity. -/
theorem typesBranch_tells_activities : (∃ t, typesBranch.write = .ok t) ∧
    ∃ document : List Activity → Text,
      (∀ activities, ({ typesBranch with activities := activities } : Workflow).write =
        .ok (document activities)) ∧
      document [.synchronize, .opened, .reopened] = document Activity.standard ∧
      document [.opened, .reopened, .synchronize, .opened] ≠ document Activity.standard ∧
      document Activity.standard ≠ document [.opened] ∧
      document [] ≠ document [.opened] := by
  obtain ⟨t, ht⟩ := exists_ok_of_isOk (r := typesBranch.write) (by decide +kernel)
  obtain ⟨document, hwrite, hsame, -⟩ := write_tells_activities ht
  refine ⟨⟨t, ht⟩, document, hwrite, ?_, ?_, ?_, ?_⟩
  · exact (hsame _ _).mpr (by decide)
  · exact fun h => absurd ((hsame _ _).mp h) (by decide)
  · exact fun h => absurd ((hsame _ _).mp h) (by decide)
  · exact fun h => absurd ((hsame _ _).mp h) (by decide)

end Workflow
end CiPipeline
