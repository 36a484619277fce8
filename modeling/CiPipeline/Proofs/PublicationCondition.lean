import CiPipeline.Pipeline
import CiPipeline.Proofs.BranchCondition
import CiPipeline.Proofs.ConditionGrammar
import CiPipeline.Proofs.Results

/-!
# CiPipeline.Proofs.PublicationCondition

What the condition of the publish job asks.

* `Expression.Holds`          — a text that is a condition, and one that holds.
* `Expression.inRun`          — what names stand for in a run of the workflow.
* `RefPredicate.Asks`         — a predicate on refs as the condition it is written as.
* `exists_spells_joined`      — texts with `||` between them are read as a disjunction.
* `publicationCond_holds_iff` — no pull request, one of the predicates, and the further condition.
-/

namespace CiPipeline

namespace Expression

def Holds (context : Context) (text : String) : Prop :=
  ∃ condition, read text = some condition ∧ condition.holds context = true

theorem holds_iff_of_read {context : Context} {text : String} {condition : Condition}
    (h : read text = some condition) :
    Holds context text ↔ condition.holds context = true := by
  constructor
  · rintro ⟨other, hother, hholds⟩
    rw [h] at hother
    cases hother
    exact hholds
  · intro hholds
    exact ⟨condition, h, hholds⟩

/-- The kind of the event and the full name of the ref; other names stand for anything. -/
def inRun (event ref : String) (others : Context) : Context := fun name =>
  if name = "github.event_name".toList then event.toList
  else if name = "github.ref".toList then ref.toList
  else others name

theorem exists_spells_joined {texts : List Text} {conditions : List Condition}
    (h : List.Forall₂ (fun text condition => read text = some condition) texts conditions)
    (hne : texts ≠ []) :
    ∃ c, Spells Join.either.level (Text.joined " || " texts) c ∧
      ∀ context, c.holds context = conditions.any (·.holds context) := by
  induction h with
  | nil => exact absurd rfl hne
  | @cons text p texts conditions hp hrest ih =>
    have hspells := read_eq_some_iff.mp hp
    cases hrest with
    | nil =>
      rw [Text.joined_singleton]
      exact ⟨p, hspells, fun context => by simp⟩
    | cons _ _ =>
      obtain ⟨q, hq, hholds⟩ := ih (by simp)
      obtain ⟨c, hc, heither⟩ := hspells.exists_either hq
      refine ⟨c, ?_, ?_⟩
      · rw [Text.joined_cons_cons, List.append_assoc]
        exact hc
      · intro context
        rw [heither, hholds]
        rfl

end Expression

open Expression

namespace RefPredicate

/-- The condition that a predicate is written as, to ask it of `github.ref`. -/
def Asks (predicate : RefPredicate) (condition : Condition) : Prop :=
  ∃ text, predicate.expression "github.ref" = .ok text ∧ Expression.read text = some condition

/-- One of the four questions about a branch or a tag whose name may stand between quotes. -/
def Quotable (predicate : RefPredicate) : Prop :=
  ∃ (question : Question) (kind : Ref.Kind) (name : String),
    predicate = question.about (kind.named name) ∧ '\'' ∉ name.toList

theorem condition_holds_congr (question : Question) {context other : Context} {target : Text}
    (h : context target = other target) (root name : Text) :
    (question.condition target root name).holds context =
      (question.condition target root name).holds other := by
  cases question with
  | equals | contains | startsWith | endsWith =>
    simp only [Question.condition, Condition.holds, Condition.value, h]

/-- Nothing but the ref matters for the answer. -/
theorem exists_asks {predicate : RefPredicate} (h : predicate.Quotable) :
    ∃ condition, predicate.Asks condition ∧ ∀ event ref others,
      condition.holds (inRun event ref others) = condition.holds (atRef ref) := by
  obtain ⟨question, kind, name, rfl, hname⟩ := h
  obtain ⟨text, htext, hread⟩ := read_expression question kind hname
  refine ⟨_, ⟨text, htext, hread⟩, ?_⟩
  intro event ref others
  have hsame : inRun event ref others "github.ref".toList = atRef ref "github.ref".toList := by
    rw [inRun, if_neg (by decide), if_pos rfl, atRef, if_pos rfl]
  exact condition_holds_congr question hsame _ _

theorem exists_forall₂_asks {predicates : List RefPredicate}
    (h : ∀ predicate ∈ predicates, predicate.Quotable) :
    ∃ conditions, List.Forall₂ (fun predicate condition => predicate.Asks condition ∧
        ∀ event ref others,
          condition.holds (inRun event ref others) = condition.holds (atRef ref))
      predicates conditions := by
  induction predicates with
  | nil => exact ⟨[], .nil⟩
  | cons predicate predicates ih =>
    obtain ⟨condition, hcondition⟩ := exists_asks (h predicate List.mem_cons_self)
    obtain ⟨conditions, hconditions⟩ :=
      ih fun other hother => h other (List.mem_cons_of_mem predicate hother)
    exact ⟨condition :: conditions, .cons hcondition hconditions⟩

end RefPredicate

namespace Pipeline

open RefPredicate

theorem any_holds_iff {predicates : List RefPredicate} {conditions : List Condition}
    (h : List.Forall₂ (fun predicate condition => predicate.Asks condition ∧
        ∀ event ref others,
          condition.holds (inRun event ref others) = condition.holds (atRef ref))
      predicates conditions) (event ref : String) (others : Context) :
    (conditions.any (·.holds (inRun event ref others))) = true ↔
      ∃ predicate ∈ predicates, ∃ text, predicate.expression "github.ref" = .ok text ∧
        Holds (atRef ref) text := by
  induction h with
  | nil => simp
  | @cons predicate condition predicates conditions hfirst _ ih =>
    obtain ⟨⟨text, htext, hread⟩, hsame⟩ := hfirst
    have hhead : (∃ text, predicate.expression "github.ref" = .ok text ∧
        Holds (atRef ref) text) ↔ condition.holds (atRef ref) = true := by
      simp only [htext, Except.ok.injEq, exists_eq_left', holds_iff_of_read hread]
    rw [List.any_cons, Bool.or_eq_true, ih, hsame, List.exists_mem_cons_iff, hhead]

/-- No pull request, at the head of the condition. -/
def notPullRequest : Condition :=
  .joined .differ (.named "github.event_name".toList) (.literal "pull_request".toList)

theorem spells_notPullRequest :
    Spells Join.both.level "github.event_name != 'pull_request'" notPullRequest := by
  have htokens : tokens "github.event_name != 'pull_request'" =
      some [.name "github.event_name".toList, .join .differ, .literal "pull_request".toList] := by
    decide +kernel
  have hdiffer : Derives Join.differ.level ([.name "github.event_name".toList] ++
      .join .differ :: [.literal "pull_request".toList]) notPullRequest :=
    .joined (.lift (.named _)) (.literal _)
  exact ⟨_, htokens, hdiffer.lift⟩

theorem notPullRequest_holds_iff (event ref : String) (others : Context) :
    notPullRequest.holds (inRun event ref others) = true ↔ event ≠ "pull_request" := by
  simp only [notPullRequest, Condition.holds, Condition.value, Join.value, Value.isTrue, inRun,
    if_true, decide_eq_true_eq, ne_eq, Value.text.injEq, String.toList_inj]

/-- The condition without the further one. -/
theorem spells_branches {branches : List String} {c : Condition}
    (h : Spells Join.either.level (Text.joined " || " (branches.map String.toList)) c) :
    Spells Join.both.level
      ("github.event_name != 'pull_request' && (" ++ " || ".intercalate branches ++ ")" : String)
      (.joined .both notPullRequest c) := by
  have htext : ("github.event_name != 'pull_request' && (" ++ " || ".intercalate branches ++ ")"
        : String).toList =
      "github.event_name != 'pull_request'".toList ++ (" && ".toList ++ ("(".toList ++
        (Text.joined " || " (branches.map String.toList) ++ ")".toList))) := by
    simp [Text.joined]
  rw [htext]
  exact spells_notPullRequest.both h.group

theorem spells_further {cond further : String} {p q : Condition}
    (hcond : Spells Join.both.level cond p) (hfurther : Spells Join.either.level further q) :
    Spells Join.both.level (cond ++ " && (" ++ further ++ ")" : String) (.joined .both p q) := by
  have htext : (cond ++ " && (" ++ further ++ ")" : String).toList =
      cond.toList ++ (" && ".toList ++ ("(".toList ++ (further.toList ++ ")".toList))) := by
    simp
  rw [htext]
  exact hcond.both hfurther.group

/-- The publish job runs at no pull request, on a ref that one of the predicates answers yes to, and
only if the further condition holds; that one may be any text that is a condition. -/
theorem publicationCond_holds_iff {settings : Settings} (hne : settings.publishBranches ≠ [])
    (hnames : ∀ predicate ∈ settings.publishBranches, predicate.Quotable)
    (hfurther : ∀ further ∈ settings.publishCond, ∃ condition,
      Expression.read further = some condition) :
    ∃ text condition, publicationCond settings = .ok text ∧
      Expression.read text = some condition ∧
      ∀ event ref others, condition.holds (inRun event ref others) = true ↔
        event ≠ "pull_request" ∧
        (∃ predicate ∈ settings.publishBranches, ∃ asked,
          predicate.expression "github.ref" = .ok asked ∧ Holds (atRef ref) asked) ∧
        ∀ further ∈ settings.publishCond, Holds (inRun event ref others) further := by
  obtain ⟨conditions, hconditions⟩ := exists_forall₂_asks hnames
  obtain ⟨branches, htexts, hreads⟩ := exists_forall₂_between (hconditions.imp fun _ _ h => h.1)
  have hbranches : branches.map String.toList ≠ [] := by
    intro hnil
    rw [List.map_eq_nil_iff] at hnil
    rw [hnil, List.forall₂_nil_right_iff] at htexts
    exact hne htexts
  obtain ⟨c, hc, hany⟩ := exists_spells_joined (List.forall₂_map_left_iff.mpr hreads) hbranches
  have hspells := spells_branches hc
  have hholds (event ref : String) (others : Context) :
      (Condition.joined .both notPullRequest c).holds (inRun event ref others) = true ↔
        event ≠ "pull_request" ∧ ∃ predicate ∈ settings.publishBranches, ∃ asked,
          predicate.expression "github.ref" = .ok asked ∧ Holds (atRef ref) asked := by
    rw [Condition.holds_both, Bool.and_eq_true, notPullRequest_holds_iff, hany,
      any_holds_iff hconditions]
  rw [publicationCond, mapM_eq_ok_iff.mpr htexts]
  cases hcond : settings.publishCond with
  | none =>
    refine ⟨_, _, rfl, read_eq_some_iff.mpr hspells.lift, ?_⟩
    intro event ref others
    simp [hholds]
  | some further =>
    obtain ⟨q, hq⟩ := hfurther further hcond
    have hboth := spells_further hspells (read_eq_some_iff.mp hq)
    refine ⟨_, _, rfl, read_eq_some_iff.mpr hboth.lift, ?_⟩
    intro event ref others
    rw [Condition.holds_both, Bool.and_eq_true, hholds, and_assoc]
    simp [holds_iff_of_read hq]

/-- Predicates that bring their own `&&`, and a further condition with an `||` outside of
parentheses. -/
def guarded : Settings :=
  { publishBranches := [.contains (.branch "release"), .startsWith (.tag "v")]
    publishCond := some "github.actor == 'bot' || github.repository == 'acme/lib'" }

/-- What holds for a push of a tag does not for a pull request, whoever opens it. -/
theorem guarded_publicationCond : guarded.publishBranches ≠ [] ∧
    (∀ predicate ∈ guarded.publishBranches, predicate.Quotable) ∧
    (∀ further ∈ guarded.publishCond, ∃ condition, Expression.read further = some condition) ∧
    ∃ text condition, publicationCond guarded = .ok text ∧
      Expression.read text = some condition ∧
      condition.holds (inRun "push" "refs/tags/v1.0" fun _ => "bot".toList) = true ∧
      condition.holds (inRun "pull_request" "refs/tags/v1.0" fun _ => "bot".toList) = false := by
  let actor : Condition := .joined .equal (.named "github.actor".toList) (.literal "bot".toList)
  let repository : Condition :=
    .joined .equal (.named "github.repository".toList) (.literal "acme/lib".toList)
  let tag : Condition :=
    .test .startsWith (.named "github.ref".toList) (.literal "refs/tags/v".toList)
  have hne : guarded.publishBranches ≠ [] := List.cons_ne_nil _ _
  have hnames : ∀ predicate ∈ guarded.publishBranches, predicate.Quotable := by
    intro predicate hpredicate
    simp only [guarded, List.mem_cons, List.not_mem_nil, or_false] at hpredicate
    rcases hpredicate with rfl | rfl
    · exact ⟨.contains, .branch, "release", rfl, by decide⟩
    · exact ⟨.startsWith, .tag, "v", rfl, by decide⟩
  have hfurther : ∀ further ∈ guarded.publishCond, ∃ condition,
      Expression.read further = some condition := by
    intro further h
    cases h
    exact ⟨.joined .either actor repository, by decide +kernel⟩
  obtain ⟨text, condition, htext, hread, hholds⟩ := publicationCond_holds_iff hne hnames hfurther
  refine ⟨hne, hnames, hfurther, text, condition, htext, hread, ?_, ?_⟩
  · refine (hholds _ _ _).mpr ⟨by decide, ⟨.startsWith (.tag "v"), by decide, _, rfl, ?_⟩, ?_⟩
    · exact ⟨tag, by decide +kernel, by decide +kernel⟩
    · intro further h
      cases h
      exact ⟨.joined .either actor repository, by decide +kernel, by decide +kernel⟩
  · rw [Bool.eq_false_iff]
    intro h
    exact absurd rfl ((hholds _ _ _).mp h).1

end Pipeline
end CiPipeline
