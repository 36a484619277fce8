import CiPipeline.Text.Blank

/-!
# CiPipeline.Proofs.Expression

Conditions in the workflow expression language: how a text is read, and what it then says.

* `Condition`, `Join`  — names, literals and tests of texts, with signs between them.
* `Value`, `Condition.holds` — what a condition comes out as, and whether that counts as true.
* `Token`, `Scan`, `advance` — the words and signs of a text, found character by character.
* `Pending`, `settle`  — conditions before a sign; `==` binds tighter than `&&`, this than `||`.
* `Reading`            — what was read so far, with the parentheses that are open.
* `read`               — the condition that a text is, if it is one.
* `advance_trans`, `advance_quoted` — a text is read piece by piece, a literal as a whole.

Only dotted names, literals in single quotes, `==`, `!=`, `&&`, `||`, parentheses and three tests of
texts are known. Every name stands for a text.
-/

namespace CiPipeline
namespace Expression

/-! ## Conditions -/

inductive Test where
  | contains
  | startsWith
  | endsWith
  deriving DecidableEq, Repr

/-- Upper and lower case are told apart. -/
def Test.passes : Test → Text → Text → Bool
  | contains, whole, part => Text.occursIn part whole
  | startsWith, whole, part => part.isPrefixOf whole
  | endsWith, whole, part => part.isSuffixOf whole

/-- The signs between two conditions. -/
inductive Join where
  | equal
  | differ
  | both
  | either
  deriving DecidableEq, Repr

/-- A sign of a lower rank binds tighter. -/
def Join.rank : Join → Nat
  | equal => 0
  | differ => 0
  | both => 1
  | either => 2

inductive Condition where
  | named (name : Text)
  | literal (value : Text)
  | test (kind : Test) (whole part : Condition)
  | joined (join : Join) (p q : Condition)
  deriving DecidableEq, Repr

/-! ## Values -/

inductive Value where
  | text (text : Text)
  | truth (truth : Bool)
  deriving DecidableEq, Repr

namespace Value

/-- A text counts as true if there is any. -/
def isTrue : Value → Bool
  | text t => !t.isEmpty
  | truth b => b

/-- The text that a test looks at. -/
def shown : Value → Text
  | text t => t
  | truth true => "true"
  | truth false => "false"

end Value

/-- A text is never equal to a truth value. What `&&` and `||` come out as is one of their sides. -/
def Join.value : Join → Value → Value → Value
  | equal, a, b => .truth (a = b)
  | differ, a, b => .truth (a ≠ b)
  | both, a, b => if a.isTrue then b else a
  | either, a, b => if a.isTrue then a else b

/-- What the names in a condition stand for. -/
abbrev Context := Text → Text

namespace Condition

def value (context : Context) : Condition → Value
  | named name => .text (context name)
  | literal value => .text value
  | test kind whole part =>
    .truth (kind.passes (whole.value context).shown (part.value context).shown)
  | joined join p q => join.value (p.value context) (q.value context)

def holds (context : Context) (condition : Condition) : Bool := (condition.value context).isTrue

variable (context : Context) (p q : Condition)

theorem holds_test (kind : Test) :
    (test kind p q).holds context = kind.passes (p.value context).shown (q.value context).shown :=
  rfl

theorem holds_both : (joined .both p q).holds context = (p.holds context && q.holds context) := by
  simp only [holds, value, Join.value]
  split
  · rename_i h
    rw [h, Bool.true_and]
  · rename_i h
    rw [Bool.not_eq_true] at h
    rw [h, Bool.false_and]

theorem holds_either :
    (joined .either p q).holds context = (p.holds context || q.holds context) := by
  simp only [holds, value, Join.value]
  split
  · rename_i h
    rw [h, Bool.true_or]
  · rename_i h
    rw [Bool.not_eq_true] at h
    rw [h, Bool.false_or]

end Condition

/-! ## Tokens -/

inductive Token where
  | name (name : Text)
  | literal (value : Text)
  | join (join : Join)
  | opening
  | closing
  | comma
  deriving DecidableEq, Repr

def startsName (c : Char) : Bool := c.isAlpha || c = '_'

def continuesName (c : Char) : Bool := c.isAlphanum || c = '_' || c = '-' || c = '.'

/-- What the last character was a part of. -/
inductive Scan where
  | between
  | word (name : Text)
  | quoted (value : Text)
  /-- After a quote in a literal: its end, or the first one of two that stand for one. -/
  | unquoted (value : Text)
  /-- After the first one of two characters of a sign. -/
  | sign (first : Char)
  deriving DecidableEq, Repr

namespace Scan

/-- A character that does not go on with what was before it. -/
def fresh (c : Char) : Option (List Token × Scan) :=
  if Blank.isBlank c then some ([], between)
  else if startsName c then some ([], word [c])
  else match c with
    | '(' => some ([.opening], between)
    | ')' => some ([.closing], between)
    | ',' => some ([.comma], between)
    | '\'' => some ([], quoted [])
    | '=' => some ([], sign c)
    | '!' => some ([], sign c)
    | '&' => some ([], sign c)
    | '|' => some ([], sign c)
    | _ => none

def after (token : Token) (c : Char) : Option (List Token × Scan) :=
  (fresh c).map fun (found, next) => (token :: found, next)

def signOf : Char → Char → Option Token
  | '=', '=' => some (.join .equal)
  | '!', '=' => some (.join .differ)
  | '&', '&' => some (.join .both)
  | '|', '|' => some (.join .either)
  | _, _ => none

/-- The tokens that are complete with a character, and what it is a part of. -/
def step : Scan → Char → Option (List Token × Scan)
  | between, c => fresh c
  | word name, c => if continuesName c then some ([], word (name ++ [c])) else after (.name name) c
  | quoted value, c => some ([], if c = '\'' then unquoted value else quoted (value ++ [c]))
  | unquoted value, c =>
    if c = '\'' then some ([], quoted (value ++ [c])) else after (.literal value) c
  | sign first, c => (signOf first c).map fun token => ([token], between)

/-- The token that the end of the text completes. -/
def finish : Scan → Option (List Token)
  | between => some []
  | word name => some [.name name]
  | unquoted value => some [.literal value]
  | _ => none

end Scan

/-- The tokens that are complete after a text, and where the scan then stands. -/
def advance (state : Scan) : Text → Option (List Token × Scan)
  | [] => some ([], state)
  | c :: rest =>
    match state.step c with
    | none => none
    | some (found, next) => (advance next rest).map fun (more, last) => (found ++ more, last)

def tokens (text : Text) : Option (List Token) :=
  match advance .between text with
  | none => none
  | some (found, last) => last.finish.map (found ++ ·)

/-! ## Conditions from tokens -/

def test? (name : Text) : Option Test :=
  if name = "contains".toList then some .contains
  else if name = "startsWith".toList then some .startsWith
  else if name = "endsWith".toList then some .endsWith
  else none

/-- Conditions with the signs behind them, the last one first. -/
abbrev Pending := List (Join × Condition)

/-- Joins a condition to those before it, as far as their signs bind at least as tight as the
rank. -/
def settle (rank : Nat) : Pending → Condition → Pending × Condition
  | [], c => ([], c)
  | (join, before) :: rest, c =>
    if join.rank ≤ rank then settle rank rest (.joined join before c)
    else ((join, before) :: rest, c)

/-- Joins a condition to all those before it. -/
def joinAll (pending : Pending) (c : Condition) : Condition := (settle Join.either.rank pending c).2

/-- What an open parenthesis stands before. -/
inductive Opened where
  | group
  | whole (kind : Test)
  /-- The comma is read, and the condition before it. -/
  | part (kind : Test) (first : Condition)

/-- The condition that ends with the parenthesis, by the one that stands in front of it. -/
def Opened.closed : Opened → Condition → Option Condition
  | group, c => some c
  | whole _, _ => none
  | part kind first, c => some (.test kind first c)

structure Reading where
  pending : Pending := []
  /-- The parentheses that are open, the innermost one first, and what was pending before each. -/
  outer : List (Pending × Opened) := []
  /-- The condition that has just ended, so that a sign or a parenthesis has to follow. -/
  ended : Option Condition := none
  /-- The test that has the name which was just read. -/
  named : Option Test := none

namespace Reading

def step (reading : Reading) (token : Token) : Option Reading :=
  match reading.ended, token with
  | none, .name name => some { reading with ended := some (.named name), named := test? name }
  | none, .literal value => some { reading with ended := some (.literal value) }
  | none, .opening => some { outer := (reading.pending, .group) :: reading.outer }
  | some _, .opening =>
    reading.named.map fun kind => { outer := (reading.pending, .whole kind) :: reading.outer }
  | some c, .join join =>
    let (pending, before) := settle join.rank reading.pending c
    some { pending := (join, before) :: pending, outer := reading.outer }
  | some c, .comma =>
    match reading.outer with
    | (pending, .whole kind) :: outer =>
      some { outer := (pending, .part kind (joinAll reading.pending c)) :: outer }
    | _ => none
  | some c, .closing =>
    match reading.outer with
    | (pending, opened) :: outer =>
      (opened.closed (joinAll reading.pending c)).map fun c =>
        { pending := pending, outer := outer, ended := some c }
    | [] => none
  | _, _ => none

def finish (reading : Reading) : Option Condition :=
  match reading.ended, reading.outer with
  | some c, [] => some (joinAll reading.pending c)
  | _, _ => none

end Reading

def conditionOf (tokens : List Token) : Option Condition :=
  (tokens.foldlM Reading.step {}).bind Reading.finish

/-- The condition that a text is, if it is one. -/
def read (text : Text) : Option Condition := (tokens text).bind conditionOf

/-- `==` binds tighter than `&&`, and this than `||`, unless parentheses say otherwise; two quotes
stand for one. -/
example : read "(a) == 'it''s' || b && (endsWith(c, 'x') || d != e)" =
    some (.joined .either (.joined .equal (.named ['a']) (.literal "it's".toList))
      (.joined .both (.named ['b'])
        (.joined .either (.test .endsWith (.named ['c']) (.literal ['x']))
          (.joined .differ (.named ['d']) (.named ['e']))))) := by
  decide +kernel

/-! ## Reading a text piece by piece -/

variable {state middle last : Scan} {found more : List Token}

theorem advance_cons {c : Char} (h : state.step c = some (found, middle)) (rest : Text) :
    advance state (c :: rest) =
      (advance middle rest).map fun (more, last) => (found ++ more, last) := by
  rw [advance, h]

theorem advance_trans {a b : Text} (ha : advance state a = some (found, middle))
    (hb : advance middle b = some (more, last)) :
    advance state (a ++ b) = some (found ++ more, last) := by
  induction a generalizing state found with
  | nil =>
    cases ha
    exact hb
  | cons c a ih =>
    cases hstep : state.step c with
    | none =>
      rw [advance, hstep] at ha
      cases ha
    | some stepped =>
      obtain ⟨first, next⟩ := stepped
      rw [advance_cons hstep, Option.map_eq_some_iff] at ha
      obtain ⟨⟨second, final⟩, hrest, hfound⟩ := ha
      cases hfound
      rw [List.cons_append, advance_cons hstep, ih hrest, Option.map_some, List.append_assoc]

/-- Nothing but a quote ends a literal. -/
theorem advance_quoted {value : Text} (h : '\'' ∉ value) (before : Text) :
    advance (.quoted before) value = some ([], .quoted (before ++ value)) := by
  induction value generalizing before with
  | nil => rw [advance, List.append_nil]
  | cons c value ih =>
    rw [List.mem_cons, not_or] at h
    have hstep : (Scan.quoted before).step c = some ([], .quoted (before ++ [c])) := by
      rw [Scan.step, if_neg fun e => h.1 e.symm]
    rw [advance_cons hstep, ih h.2, List.append_assoc, List.singleton_append]
    rfl

theorem tokens_of_advance {text : Text} {ending : List Token}
    (h : advance .between text = some (found, last)) (hlast : last.finish = some ending) :
    tokens text = some (found ++ ending) := by
  rw [tokens, h]
  simp only [hlast, Option.map_some]

end Expression
end CiPipeline
