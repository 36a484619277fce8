import CiPipeline.Proofs.Expression
import CiPipeline.Ref

/-!
# CiPipeline.Proofs.BranchCondition

What the condition of a ref predicate says about the short name of a branch or tag.

* `Ref.Kind`, `Question` — the two kinds of refs, and the four questions about a name.
* `Question.Fits`       — the answer, from the short name and from the root of all full names.
* `append_iff_cut`      — a match in a text that is put together begins in its first or second part.
* `read_expression`     — the expression of a predicate is read as the condition it is meant to be.
* `expression_holds_iff` — its value at a branch or tag.
* `expression_holds_on_root` — a match with the root that the short name has no part in.
-/

namespace CiPipeline

namespace Ref

inductive Kind where
  | branch
  | tag
  deriving DecidableEq, Repr

namespace Kind

def named : Kind → String → Ref
  | branch, name => .branch name
  | tag, name => .tag name

def root : Kind → String
  | branch => "refs/heads/"
  | tag => "refs/tags/"

theorem root_named (kind : Kind) (name : String) : (kind.named name).root = .ok kind.root := by
  cases kind <;> rfl

theorem name_named (kind : Kind) (name : String) : (kind.named name).name = name := by
  cases kind <;> rfl

theorem qualified_named (kind : Kind) (name : String) :
    (kind.named name).qualified = .ok (kind.root ++ name) := by
  rw [qualified, root_named, name_named]
  rfl

theorem quote_notMem_root (kind : Kind) : '\'' ∉ kind.root.toList := by
  cases kind <;> decide

/-- The first letter after `refs/` tells the kinds apart. -/
theorem root_prefix_iff {kind other : Kind} {short : Text} :
    kind.root.toList <+: other.root.toList ++ short ↔ other = kind := by
  constructor
  · rintro ⟨rest, hrest⟩
    have hletter : (kind.root.toList ++ rest)[5]? = (other.root.toList ++ short)[5]? := by rw [hrest]
    cases kind <;> cases other <;> simp [root] at hletter ⊢
  · rintro rfl
    exact List.prefix_append _ _

end Kind
end Ref

namespace RefPredicate

open Expression

inductive Question where
  | equals
  | contains
  | startsWith
  | endsWith
  deriving DecidableEq, Repr

namespace Question

def about : Question → Ref → RefPredicate
  | equals, ref => .equals ref
  | contains, ref => .contains ref
  | startsWith, ref => .startsWith ref
  | endsWith, ref => .endsWith ref

/-- The answer to a question about a short name. The full name is what is looked at, so a match may
begin in a cut-off end of its root. -/
def Fits (root name short : Text) : Question → Prop
  | equals => short = name
  | contains => name <:+: short ∨ ∃ cut, cut ≠ [] ∧ cut <:+ root ∧ name <+: cut ++ short
  | startsWith => name <+: short
  | endsWith => name <:+ short ∨ ∃ cut, cut ≠ [] ∧ cut <:+ root ∧ name = cut ++ short

/-- The condition that the expression of a predicate is meant to be. -/
def condition (question : Question) (target root name : Text) : Condition :=
  let target : Condition := .named target
  let ofKind : Condition := .test .startsWith target (.literal root)
  match question with
  | equals => .joined .equal target (.literal (root ++ name))
  | contains => .joined .both ofKind (.test .contains target (.literal name))
  | startsWith => .test .startsWith target (.literal (root ++ name))
  | endsWith => .joined .both ofKind (.test .endsWith target (.literal name))

end Question

/-! ## Matches in two parts -/

/-- A property of a text or one of its ends, of two texts put together. -/
theorem append_iff_cut {here somewhere : Text → Prop}
    (hcons : ∀ c t, somewhere (c :: t) ↔ here (c :: t) ∨ somewhere t) (root short : Text) :
    somewhere (root ++ short) ↔
      somewhere short ∨ ∃ cut, cut ≠ [] ∧ cut <:+ root ∧ here (cut ++ short) := by
  induction root with
  | nil => simp +contextual
  | cons c root ih =>
    rw [List.cons_append, hcons, ih]
    constructor
    · rintro (hhere | hshort | ⟨cut, hne, hcut, hhere⟩)
      · exact .inr ⟨c :: root, by simp, List.suffix_rfl, hhere⟩
      · exact .inl hshort
      · exact .inr ⟨cut, hne, hcut.trans (List.suffix_cons c root), hhere⟩
    · rintro (hshort | ⟨cut, hne, hcut, hhere⟩)
      · exact .inr (.inl hshort)
      · rcases List.suffix_cons_iff.mp hcut with rfl | hcut
        · exact .inl hhere
        · exact .inr (.inr ⟨cut, hne, hcut, hhere⟩)

/-! ## The expression -/

section

variable {last : Scan} {found more ending : List Token} {value : Text}

/-- A text with a literal in it, from the tokens before the literal and those behind it. -/
theorem read_of_literal {text : String} {start tail : Text}
    (htext : text.toList = start ++ (value ++ '\'' :: tail)) (hvalue : '\'' ∉ value)
    (hstart : advance .between start = some (found, .quoted []))
    (htail : advance (.unquoted value) tail = some (more, last))
    (hlast : last.finish = some ending) :
    Expression.read text = conditionOf (found ++ (more ++ ending)) := by
  have hquote : advance (.quoted value) ('\'' :: tail) = some (more, last) := by
    have hstep : (Scan.quoted value).step '\'' = some ([], .unquoted value) := rfl
    rw [advance_cons hstep, htail]
    rfl
  have hadvance := advance_trans hstart (advance_trans (advance_quoted hvalue []) hquote)
  have htokens := tokens_of_advance hadvance hlast
  rw [List.nil_append, List.append_assoc] at htokens
  rw [Expression.read, htext, htokens, Option.bind_some]

/-- The test that a predicate makes of the full name, after that of the kind. -/
theorem read_kindTest {function : String} {test : Test} (kind : Ref.Kind)
    (hfunction : function = "contains" ∧ test = .contains ∨ function = "endsWith" ∧ test = .endsWith)
    {name : String} (hname : '\'' ∉ name.toList) :
    Expression.read ("(" ++ call "startsWith" "github.ref" kind.root ++ " && "
        ++ call function "github.ref" name ++ ")" : String) =
      some (.joined .both
        (.test .startsWith (.named "github.ref".toList) (.literal kind.root.toList))
        (.test test (.named "github.ref".toList) (.literal name.toList))) := by
  let start : String := "(startsWith(github.ref, '" ++ kind.root ++ "') && " ++ function ++
    "(github.ref, '"
  have htext : ("(" ++ call "startsWith" "github.ref" kind.root ++ " && "
      ++ call function "github.ref" name ++ ")").toList =
        start.toList ++ (name.toList ++ '\'' :: [')', ')']) := by
    simp [start, call]
  have hstart : advance .between start.toList =
      some ([.opening, .name "startsWith".toList, .opening, .name "github.ref".toList, .comma,
        .literal kind.root.toList, .closing, .join .both, .name function.toList, .opening,
        .name "github.ref".toList, .comma], .quoted []) := by
    rcases hfunction with ⟨rfl, rfl⟩ | ⟨rfl, rfl⟩ <;> cases kind <;> decide +kernel
  rw [read_of_literal htext hname hstart rfl rfl]
  rcases hfunction with ⟨rfl, rfl⟩ | ⟨rfl, rfl⟩ <;> rfl

end

/-- The text is what a reader takes it for, whatever name is asked for. -/
theorem read_expression (question : Question) (kind : Ref.Kind) {name : String}
    (hname : '\'' ∉ name.toList) :
    ∃ text : String, (question.about (kind.named name)).expression "github.ref" = .ok text ∧
      Expression.read text =
        some (question.condition "github.ref".toList kind.root.toList name.toList) := by
  have hfull : '\'' ∉ kind.root.toList ++ name.toList := by
    rw [List.mem_append, not_or]
    exact ⟨kind.quote_notMem_root, hname⟩
  cases question with
  | equals =>
    let text := "github.ref == '" ++ (kind.root ++ name) ++ "'"
    have htext : text.toList =
        "github.ref == '".toList ++ (kind.root.toList ++ name.toList ++ '\'' :: []) := by
      simp [text]
    refine ⟨text, ?_, ?_⟩
    · rw [Question.about, expression, kind.qualified_named]
      rfl
    · rw [read_of_literal htext hfull rfl rfl rfl]
      rfl
  | contains =>
    refine ⟨_, ?_, read_kindTest kind (.inl ⟨rfl, rfl⟩) hname⟩
    rw [Question.about, expression, kind.root_named, kind.name_named]
    rfl
  | startsWith =>
    let text := call "startsWith" "github.ref" (kind.root ++ name)
    have htext : text.toList =
        "startsWith(github.ref, '".toList ++ (kind.root.toList ++ name.toList ++ '\'' :: [')']) := by
      simp [text, call]
    refine ⟨text, ?_, ?_⟩
    · rw [Question.about, expression, kind.qualified_named]
      rfl
    · rw [read_of_literal htext hfull rfl rfl rfl]
      rfl
  | endsWith =>
    refine ⟨_, ?_, read_kindTest kind (.inr ⟨rfl, rfl⟩) hname⟩
    rw [Question.about, expression, kind.root_named, kind.name_named]
    rfl

/-! ## Its value -/

/-- Only the name of the ref stands for a text. -/
def atRef (full : String) : Context := fun name =>
  if name = "github.ref".toList then full.toList else []

theorem condition_holds_iff (question : Question) {kind actual : Ref.Kind} {context : Context}
    {target name short : Text} (htarget : context target = actual.root.toList ++ short) :
    (question.condition target kind.root.toList name).holds context = true ↔
      actual = kind ∧ question.Fits kind.root.toList name short := by
  have hkind : (Test.startsWith.passes (actual.root.toList ++ short) kind.root.toList) = true ↔
      actual = kind := by
    rw [Test.passes, List.isPrefixOf_iff_prefix, Ref.Kind.root_prefix_iff]
  cases question with
  | equals =>
    simp only [Question.condition, Condition.holds, Condition.value, Join.value, Value.isTrue,
      htarget, decide_eq_true_eq, Value.text.injEq]
    constructor
    · intro h
      have hsame := Ref.Kind.root_prefix_iff.mp (h ▸ List.prefix_append _ _)
      subst hsame
      exact ⟨rfl, List.append_cancel_left h⟩
    · rintro ⟨rfl, hname⟩
      rw [Question.Fits] at hname
      rw [hname]
  | contains =>
    simp only [Question.condition, Condition.holds_both, Condition.holds_test, Condition.value,
      Value.shown, htarget, Bool.and_eq_true, hkind]
    refine and_congr_right ?_
    rintro rfl
    rw [Test.passes, Text.occursIn_iff, Question.Fits]
    exact append_iff_cut (fun _ _ => List.infix_cons_iff) _ _
  | startsWith =>
    simp only [Question.condition, Condition.holds_test, Condition.value, Value.shown, htarget,
      Test.passes, List.isPrefixOf_iff_prefix, Question.Fits]
    constructor
    · intro h
      have hsame := Ref.Kind.root_prefix_iff.mp ((List.prefix_append _ _).trans h)
      subst hsame
      exact ⟨rfl, (List.prefix_append_right_inj _).mp h⟩
    · rintro ⟨rfl, hname⟩
      exact (List.prefix_append_right_inj _).mpr hname
  | endsWith =>
    simp only [Question.condition, Condition.holds_both, Condition.holds_test, Condition.value,
      Value.shown, htarget, Bool.and_eq_true, hkind]
    refine and_congr_right ?_
    rintro rfl
    rw [Test.passes, List.isSuffixOf_iff_suffix, Question.Fits]
    exact append_iff_cut (fun _ _ => List.suffix_cons_iff) _ _

/-- The expression of a predicate asks for the kind of the ref, and its question about the short
name, but for the matches that begin in the root of the full name. -/
theorem expression_holds_iff (question : Question) (kind : Ref.Kind) {name : String}
    (hname : '\'' ∉ name.toList) (actual : Ref.Kind) (short : String) :
    ∃ text full condition, (question.about (kind.named name)).expression "github.ref" = .ok text ∧
      (actual.named short).qualified = .ok full ∧
      Expression.read text = some condition ∧
      (condition.holds (atRef full) = true ↔
        actual = kind ∧ question.Fits kind.root.toList name.toList short.toList) := by
  obtain ⟨text, htext, hread⟩ := read_expression question kind hname
  have htarget : atRef (actual.root ++ short) "github.ref".toList =
      actual.root.toList ++ short.toList := by
    rw [atRef, if_pos rfl, String.toList_append]
  exact ⟨text, _, _, htext, actual.qualified_named short, hread, condition_holds_iff question htarget⟩

/-- The end of the root and the whole short name make up the name that is asked for. -/
theorem expression_holds_across_root : '\'' ∉ "s/main".toList ∧
    ∃ text condition, (Question.endsWith.about (.branch "s/main")).expression "github.ref" =
        .ok text ∧
      Expression.read text = some condition ∧
      condition.holds (atRef "refs/heads/main") = true := by
  have hname : '\'' ∉ "s/main".toList := by decide
  obtain ⟨text, full, condition, htext, hfull, hread, hholds⟩ :=
    expression_holds_iff .endsWith .branch hname .branch "main"
  cases hfull
  have hfits : Question.endsWith.Fits (Ref.Kind.root .branch).toList "s/main".toList
      "main".toList := .inr ⟨"s/".toList, by decide, by decide, by decide⟩
  exact ⟨hname, text, condition, htext, hread, hholds.mpr ⟨rfl, hfits⟩⟩

/-- The root alone answers a question that is about the short name. -/
theorem expression_holds_on_root :
    ∃ text condition, (Question.contains.about (.branch "heads")).expression "github.ref" =
        .ok text ∧
      Expression.read text = some condition ∧
      condition.holds (atRef "refs/heads/main") = true ∧
      ¬ "heads".toList <:+: "main".toList := by
  refine ⟨_, _, rfl, read_kindTest .branch (.inl ⟨rfl, rfl⟩) (by decide), ?_, by decide⟩
  decide +kernel

end RefPredicate
end CiPipeline
