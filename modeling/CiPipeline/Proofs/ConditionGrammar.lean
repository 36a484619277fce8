import CiPipeline.Proofs.Expression

/-!
# CiPipeline.Proofs.ConditionGrammar

The grammar of conditions, and that the reader follows it.

* `Join.level`, `Derives`   — signs of a level between conditions of the level below it.
* `completes_of_derives`    — the reader makes of derived tokens what the grammar says.
* `Waits`, `Encloses`, `Behind` — the tokens behind the reader, by what it keeps of them.
* `conditionOf_eq_some_iff` — the reader accepts what the grammar derives, as the same condition.
* `Spells`                  — a text that is read as a condition of a level.
* `Spells.group`, `Spells.both`, `Spells.exists_either` — texts put together by signs.
-/

namespace CiPipeline
namespace Expression

/-! ## The grammar -/

/-- Conditions of this level may hold the sign outside of parentheses. The conditions of level zero
hold none. -/
abbrev Join.level (join : Join) : Nat := join.rank + 1

/-- All signs group to the left. A name in front of a parenthesis is that of a test. -/
inductive Derives : Nat → List Token → Condition → Prop where
  | named (name) : Derives 0 [.name name] (.named name)
  | literal (value) : Derives 0 [.literal value] (.literal value)
  | group {ts c} : Derives Join.either.level ts c →
      Derives 0 (.opening :: (ts ++ [.closing])) c
  | test {name kind ts us p q} : test? name = some kind →
      Derives Join.either.level ts p → Derives Join.either.level us q →
      Derives 0 (.name name :: .opening :: (ts ++ .comma :: (us ++ [.closing]))) (.test kind p q)
  | lift {level ts c} : Derives level ts c → Derives (level + 1) ts c
  | joined {join ts us p q} : Derives (Join.level join) ts p → Derives join.rank us q →
      Derives join.level (ts ++ .join join :: us) (.joined join p q)

theorem Join.rank_le_either (join : Join) : join.rank ≤ Join.either.rank := by
  cases join <;> decide

theorem Derives.lift_to {level higher : Nat} {ts : List Token} {c : Condition}
    (h : Derives level ts c) (hle : level ≤ higher) : Derives higher ts c := by
  induction hle with
  | refl => exact h
  | step _ ih => exact ih.lift

/-! ### From the grammar to the reader -/

section

variable {rank : Nat} {pending : Pending} {join : Join} {before c : Condition}

theorem settle_cons_of_le (h : join.rank ≤ rank) :
    settle rank ((join, before) :: pending) c = settle rank pending (.joined join before c) :=
  if_pos h

theorem settle_of_lt (h : ∀ waiting ∈ pending, rank < waiting.1.rank) :
    settle rank pending c = (pending, c) := by
  cases pending with
  | nil => rfl
  | cons first rest => exact if_neg (Nat.not_le_of_lt (h first List.mem_cons_self))

end

namespace Reading

variable {reading next : Reading} {ts us : List Token}

theorem foldlM_cons_of_step {token : Token} (h : reading.step token = some next) :
    (token :: us).foldlM step reading = us.foldlM step next := by
  rw [List.foldlM_cons, h]
  rfl

theorem foldlM_append_of_run (h : ts.foldlM step reading = some next) :
    (ts ++ us).foldlM step reading = us.foldlM step next := by
  rw [List.foldlM_append, h]
  rfl

end Reading

/-- What the reader makes of tokens of a level. It need not have joined all of them yet, but a sign
of the level behind them, or one that binds less tight, finds the same as if it had. -/
def Completes (level : Nat) (ts : List Token) (c : Condition) : Prop :=
  ∀ pending outer, (∀ waiting ∈ pending, level ≤ waiting.1.rank) →
    ∃ inner d named, ts.foldlM Reading.step { pending, outer } =
        some { pending := inner, outer, ended := some d, named } ∧
      ∀ rank, level ≤ rank + 1 → settle rank inner d = settle rank pending c

/-- Behind a parenthesis or a comma, nothing waits. -/
theorem Completes.exists_joinAll {ts : List Token} {c : Condition}
    (h : Completes Join.either.level ts c) (outer : List (Pending × Opened)) :
    ∃ inner d named, ts.foldlM Reading.step { outer } =
        some { pending := inner, outer, ended := some d, named } ∧ joinAll inner d = c := by
  obtain ⟨inner, d, named, hrun, hsettle⟩ := h [] outer (by simp)
  exact ⟨inner, d, named, hrun, congrArg Prod.snd (hsettle _ (Nat.le_refl _))⟩

theorem completes_of_derives {level : Nat} {ts : List Token} {c : Condition}
    (h : Derives level ts c) : Completes level ts c := by
  induction h with
  | named name => exact fun pending outer _ => ⟨pending, _, _, rfl, fun _ _ => rfl⟩
  | literal value => exact fun pending outer _ => ⟨pending, _, _, rfl, fun _ _ => rfl⟩
  | @group ts c _ ih =>
    intro pending outer _
    obtain ⟨inner, d, named, hrun, hall⟩ := ih.exists_joinAll ((pending, .group) :: outer)
    have hopening : Reading.step { pending, outer } .opening =
        some { outer := (pending, .group) :: outer } := rfl
    refine ⟨pending, c, none, ?_, fun _ _ => rfl⟩
    rw [Reading.foldlM_cons_of_step hopening, Reading.foldlM_append_of_run hrun, ← hall]
    rfl
  | @test name kind ts us p q hname _ _ ihp ihq =>
    intro pending outer _
    obtain ⟨inner, d, named, hrun, hall⟩ := ihp.exists_joinAll ((pending, .whole kind) :: outer)
    obtain ⟨inner', d', named', hrun', hall'⟩ :=
      ihq.exists_joinAll ((pending, .part kind p) :: outer)
    have hopening : [Token.name name, .opening].foldlM Reading.step { pending, outer } =
        some { outer := (pending, .whole kind) :: outer } := by
      simp [Reading.step, hname]
    have hcomma : Reading.step
        { pending := inner, outer := (pending, .whole kind) :: outer, ended := some d, named }
        .comma = some { outer := (pending, .part kind p) :: outer } := by
      rw [← hall]
      rfl
    refine ⟨pending, .test kind p q, none, ?_, fun _ _ => rfl⟩
    have hsplit : Token.name name :: .opening :: (ts ++ .comma :: (us ++ [.closing])) =
        [.name name, .opening] ++ (ts ++ .comma :: (us ++ [.closing])) := rfl
    rw [hsplit, Reading.foldlM_append_of_run hopening, Reading.foldlM_append_of_run hrun,
      Reading.foldlM_cons_of_step hcomma, Reading.foldlM_append_of_run hrun', ← hall']
    rfl
  | lift _ ih =>
    intro pending outer hpending
    obtain ⟨inner, d, named, hrun, hsettle⟩ :=
      ih pending outer fun waiting hwaiting => Nat.le_of_succ_le (hpending waiting hwaiting)
    exact ⟨inner, d, named, hrun, fun rank hrank => hsettle rank (Nat.le_of_succ_le hrank)⟩
  | @joined join ts us p q _ _ ihp ihq =>
    intro pending outer hpending
    obtain ⟨inner, d, named, hrun, hsettle⟩ := ihp pending outer hpending
    have hbefore : settle join.rank inner d = (pending, p) :=
      (hsettle join.rank (Nat.le_refl _)).trans (settle_of_lt hpending)
    have hsign : Reading.step { pending := inner, outer, ended := some d, named } (.join join) =
        some { pending := (join, p) :: pending, outer } := by
      simp only [Reading.step, hbefore]
    have hwaiting : ∀ waiting ∈ (join, p) :: pending, join.rank ≤ waiting.1.rank := by
      intro waiting hmem
      rcases List.mem_cons.mp hmem with rfl | hmem
      · exact Nat.le_refl _
      · exact Nat.le_of_succ_le (hpending waiting hmem)
    obtain ⟨inner', d', named', hrun', hsettle'⟩ := ihq ((join, p) :: pending) outer hwaiting
    refine ⟨inner', d', named', ?_, fun rank hrank => ?_⟩
    · rw [Reading.foldlM_append_of_run hrun, Reading.foldlM_cons_of_step hsign, hrun']
    · rw [hsettle' rank (Nat.le_of_succ_le hrank),
        settle_cons_of_le (Nat.le_of_succ_le_succ hrank)]

/-! ### From the reader to the grammar -/

/-- The tokens of pending conditions with the signs behind them. The later a sign, the tighter it
binds, and none binds tighter than those of the level. -/
inductive Waits : Nat → Pending → List Token → Prop where
  | nil {level} : Waits level [] []
  | cons {level join before rest ts us} : level ≤ join.rank → Waits (Join.level join) rest ts →
      Derives join.level us before →
      Waits level ((join, before) :: rest) (ts ++ (us ++ [.join join]))

/-- Joining goes on up to a sign that binds less tight than the rank. -/
theorem Waits.settle {level : Nat} {pending : Pending} {ts us : List Token} {c : Condition}
    (h : Waits level pending ts) (hc : Derives level us c) {rank : Nat} (hle : level ≤ rank + 1) :
    ∃ ts' us', ts ++ us = ts' ++ us' ∧ Waits (rank + 1) (settle rank pending c).1 ts' ∧
      Derives (rank + 1) us' (settle rank pending c).2 := by
  induction h generalizing us c with
  | nil => exact ⟨[], us, rfl, .nil, hc.lift_to hle⟩
  | @cons level join before rest ts vs hjoin hrest hbefore ih =>
    by_cases hrank : join.rank ≤ rank
    · rw [settle_cons_of_le hrank]
      obtain ⟨ts', us', htokens, hwaits, hderives⟩ :=
        ih (.joined hbefore (hc.lift_to hjoin)) (Nat.succ_le_succ hrank)
      exact ⟨ts', us', by simpa using htokens, hwaits, hderives⟩
    · have hsame : Expression.settle rank ((join, before) :: rest) c =
          ((join, before) :: rest, c) := if_neg hrank
      rw [hsame]
      exact ⟨_, us, rfl, .cons (Nat.lt_of_not_le hrank) hrest hbefore, hc.lift_to hle⟩

/-- No sign binds less tight than all of them. -/
theorem Waits.eq_nil {pending : Pending} {ts : List Token}
    (h : Waits Join.either.level pending ts) : ts = [] := by
  cases h with
  | nil => rfl
  | @cons _ join _ _ _ _ hjoin _ _ => exact absurd hjoin (Nat.not_lt_of_le join.rank_le_either)

theorem Waits.joinAll {pending : Pending} {ts us : List Token} {c : Condition}
    (h : Waits 0 pending ts) (hc : Derives 0 us c) :
    Derives Join.either.level (ts ++ us) (joinAll pending c) := by
  obtain ⟨ts', us', htokens, hwaits, hderives⟩ := h.settle hc (Nat.zero_le Join.either.level)
  rw [htokens, hwaits.eq_nil]
  exact hderives

/-- The tokens up to the innermost open parenthesis, that one with them, or up to its comma. -/
inductive Encloses : List (Pending × Opened) → List Token → Prop where
  | nil : Encloses [] []
  | group {pending outer before ts} : Encloses outer before → Waits 0 pending ts →
      Encloses ((pending, .group) :: outer) (before ++ ts ++ [.opening])
  | whole {pending outer before ts name kind} : Encloses outer before → Waits 0 pending ts →
      test? name = some kind →
      Encloses ((pending, .whole kind) :: outer) (before ++ ts ++ [.name name, .opening])
  | part {pending outer before ts name kind us p} : Encloses outer before → Waits 0 pending ts →
      test? name = some kind → Derives Join.either.level us p →
      Encloses ((pending, .part kind p) :: outer)
        (before ++ ts ++ .name name :: .opening :: (us ++ [.comma]))

/-- The reader stands behind these tokens, and waits for a condition or has just read one. -/
inductive Behind : Reading → List Token → Prop where
  | waiting {pending outer before ts} : Encloses outer before → Waits 0 pending ts →
      Behind { pending, outer } (before ++ ts)
  | ended {pending outer before ts us c named} : Encloses outer before → Waits 0 pending ts →
      Derives 0 us c →
      (∀ kind, named = some kind → ∃ name, us = [.name name] ∧ test? name = some kind) →
      Behind { pending, outer, ended := some c, named } (before ++ ts ++ us)

namespace Behind

variable {reading next : Reading} {ts us : List Token} {c : Condition}

theorem ended_of_plain {pending : Pending} {outer : List (Pending × Opened)}
    {before : List Token} (hbefore : Encloses outer before) (hts : Waits 0 pending ts)
    (hc : Derives 0 us c) :
    Behind { pending, outer, ended := some c } (before ++ ts ++ us) :=
  .ended hbefore hts hc fun _ hnone => absurd hnone (by simp)

/-- A parenthesis closes the condition behind the one that was opened last. -/
theorem closing {pending around : Pending} {outer : List (Pending × Opened)} {opened : Opened}
    {before : List Token} {d : Condition} (hbefore : Encloses ((around, opened) :: outer) before)
    (hts : Waits 0 pending ts) (hc : Derives 0 us c)
    (hclosed : opened.closed (joinAll pending c) = some d) :
    Behind { pending := around, outer, ended := some d } (before ++ ts ++ us ++ [.closing]) := by
  have hinside := hts.joinAll hc
  cases hbefore with
  | @group _ _ before vs houter haround =>
    cases hclosed
    have htokens : before ++ vs ++ [.opening] ++ ts ++ us ++ [.closing] =
        before ++ vs ++ .opening :: ((ts ++ us) ++ [.closing]) := by simp
    rw [htokens]
    exact ended_of_plain houter haround (.group hinside)
  | whole => cases hclosed
  | @part _ _ before vs name kind ws p houter haround hname hp =>
    cases hclosed
    have htokens : before ++ vs ++ .name name :: .opening :: (ws ++ [.comma]) ++ ts ++ us ++
        [.closing] = before ++ vs ++
          .name name :: .opening :: (ws ++ .comma :: ((ts ++ us) ++ [.closing])) := by simp
    rw [htokens]
    exact ended_of_plain houter haround (.test hname hp hinside)

theorem comma {pending around : Pending} {outer : List (Pending × Opened)} {kind : Test}
    {before : List Token} (hbefore : Encloses ((around, .whole kind) :: outer) before)
    (hts : Waits 0 pending ts) (hc : Derives 0 us c) :
    Behind { outer := (around, .part kind (joinAll pending c)) :: outer }
      (before ++ ts ++ us ++ [.comma]) := by
  cases hbefore with
  | @whole _ _ before vs name _ houter haround hname =>
    have htokens : before ++ vs ++ [.name name, .opening] ++ ts ++ us ++ [.comma] =
        before ++ vs ++ .name name :: .opening :: ((ts ++ us) ++ [.comma]) ++ [] := by simp
    rw [htokens]
    exact .waiting (.part houter haround hname (hts.joinAll hc)) .nil

theorem step {token : Token} (h : Behind reading ts) (hstep : reading.step token = some next) :
    Behind next (ts ++ [token]) := by
  cases h with
  | @waiting pending outer before ts hbefore hts =>
    cases token with
    | name name =>
      cases hstep
      exact .ended hbefore hts (.named name) fun kind hkind => ⟨name, rfl, hkind⟩
    | literal value =>
      cases hstep
      exact ended_of_plain hbefore hts (.literal value)
    | opening =>
      cases hstep
      rw [← List.append_nil (before ++ ts ++ [Token.opening])]
      exact .waiting (.group hbefore hts) .nil
    | join join => cases hstep
    | comma => cases hstep
    | closing => cases hstep
  | @ended pending outer before ts us c named hbefore hts hc hnamed =>
    cases token with
    | name name => cases hstep
    | literal value => cases hstep
    | opening =>
      obtain ⟨kind, hkind, rfl⟩ := Option.map_eq_some_iff.mp hstep
      obtain ⟨name, rfl, hname⟩ := hnamed kind hkind
      have htokens : before ++ ts ++ [.name name] ++ [.opening] =
          before ++ ts ++ [.name name, .opening] ++ [] := by simp
      rw [htokens]
      exact .waiting (.whole hbefore hts hname) .nil
    | join join =>
      cases hstep
      obtain ⟨ts', us', htokens, hwaits, hderives⟩ := hts.settle hc (Nat.zero_le join.level)
      have hall : before ++ ts ++ us ++ [.join join] =
          before ++ (ts' ++ (us' ++ [.join join])) := by
        rw [List.append_assoc before, htokens]
        simp
      rw [hall]
      exact .waiting hbefore (.cons (Nat.zero_le _) hwaits hderives)
    | comma =>
      cases outer with
      | nil => cases hstep
      | cons first outer =>
        obtain ⟨around, opened⟩ := first
        cases opened with
        | group => cases hstep
        | whole kind =>
          cases hstep
          exact comma hbefore hts hc
        | part kind p => cases hstep
    | closing =>
      cases outer with
      | nil => cases hstep
      | cons first outer =>
        obtain ⟨around, opened⟩ := first
        obtain ⟨d, hclosed, rfl⟩ := Option.map_eq_some_iff.mp hstep
        exact closing hbefore hts hc hclosed

theorem run (h : Behind reading ts) (hrun : us.foldlM Reading.step reading = some next) :
    Behind next (ts ++ us) := by
  induction us generalizing reading ts with
  | nil =>
    cases hrun
    rwa [List.append_nil]
  | cons token us ih =>
    rw [List.foldlM_cons, Option.bind_eq_bind, Option.bind_eq_some_iff] at hrun
    obtain ⟨middle, hstep, hrest⟩ := hrun
    rw [← List.singleton_append, ← List.append_assoc]
    exact ih (h.step hstep) hrest

theorem derives_of_finish (h : Behind reading ts) (hfinish : reading.finish = some c) :
    Derives Join.either.level ts c := by
  cases h with
  | waiting hbefore hts => cases hfinish
  | @ended pending outer before ts us d named hbefore hts hd _ =>
    cases hbefore with
    | nil =>
      cases hfinish
      rw [List.nil_append]
      exact hts.joinAll hd
    | group => cases hfinish
    | whole => cases hfinish
    | part => cases hfinish

end Behind

/-- The reader accepts what the grammar derives, and nothing else. -/
theorem conditionOf_eq_some_iff {ts : List Token} {c : Condition} :
    conditionOf ts = some c ↔ Derives Join.either.level ts c := by
  constructor
  · intro h
    obtain ⟨last, hrun, hfinish⟩ := Option.bind_eq_some_iff.mp h
    have hstart : Behind {} [] := .waiting .nil .nil
    exact (hstart.run hrun).derives_of_finish hfinish
  · intro h
    obtain ⟨inner, d, named, hrun, hall⟩ := (completes_of_derives h).exists_joinAll []
    rw [conditionOf, hrun, Option.bind_some, ← hall]
    rfl

theorem Derives.exists_either {ts us : List Token} {p q : Condition}
    (hp : Derives Join.either.level ts p) (hq : Derives Join.either.level us q) :
    ∃ c, Derives Join.either.level (ts ++ .join .either :: us) c ∧
      ∀ context, c.holds context = (p.holds context || q.holds context) := by
  generalize hlevel : Join.either.level = level at hq
  induction hq with
  | named => cases hlevel
  | literal => cases hlevel
  | group => cases hlevel
  | test => cases hlevel
  | @lift level us q hq =>
    cases hlevel
    exact ⟨.joined .either p q, .joined hp hq, fun context => Condition.holds_either context p q⟩
  | @joined join us vs q r _ hr ih _ =>
    obtain rfl : join = .either := by
      cases join with
      | either => rfl
      | _ => cases hlevel
    obtain ⟨c, hc, hholds⟩ := ih rfl
    refine ⟨.joined .either c r, ?_, ?_⟩
    · rw [← List.cons_append, ← List.append_assoc]
      exact .joined hc hr
    · intro context
      rw [Condition.holds_either, Condition.holds_either, hholds, Bool.or_assoc]

/-! ## Texts -/

/-- A character that is no part of the word or the literal before it. -/
def Breaks (c : Char) : Prop := continuesName c = false ∧ c ≠ '\''

theorem step_of_finish {c : Char} (hc : Breaks c) {state : Scan} {ending : List Token}
    (h : state.finish = some ending) :
    state.step c = (Scan.fresh c).map fun (found, next) => (ending ++ found, next) := by
  cases state with
  | between =>
    cases h
    simp only [Scan.step, List.nil_append, Option.map_id']
  | word name =>
    cases h
    rw [Scan.step, if_neg (by rw [hc.1]; decide)]
    rfl
  | unquoted value =>
    cases h
    rw [Scan.step, if_neg hc.2]
    rfl
  | quoted value => cases h
  | sign first => cases h

theorem exists_advance_of_tokens {t : Text} {ts : List Token} (h : tokens t = some ts) :
    ∃ found last ending, advance .between t = some (found, last) ∧ last.finish = some ending ∧
      ts = found ++ ending := by
  rw [tokens] at h
  split at h
  · cases h
  · rename_i found last hadvance
    obtain ⟨ending, hlast, hts⟩ := Option.map_eq_some_iff.mp h
    exact ⟨found, last, ending, hadvance, hlast, hts.symm⟩

theorem tokens_append {t u : Text} {c : Char} (hc : Breaks c) {before after : List Token}
    (ht : tokens t = some before) (hu : tokens (c :: u) = some after) :
    tokens (t ++ c :: u) = some (before ++ after) := by
  obtain ⟨found, last, ending, hadvance, hlast, rfl⟩ := exists_advance_of_tokens ht
  obtain ⟨more, final, rest, hmore, hfinal, rfl⟩ := exists_advance_of_tokens hu
  have hfirst : advance last (c :: u) = some (ending ++ more, final) := by
    have hbetween : advance last (c :: u) =
        (advance .between (c :: u)).map fun (more, next) => (ending ++ more, next) := by
      rw [advance, advance, step_of_finish hc hlast, Scan.step]
      cases Scan.fresh c with
      | none => rfl
      | some stepped => simp [Option.map_map, Function.comp_def]
    rw [hbetween, hmore, Option.map_some]
  rw [tokens_of_advance (advance_trans hadvance hfirst) hfinal]
  simp

theorem tokens_of_lead {lead t : Text} {found ts : List Token}
    (hlead : advance .between lead = some (found, .between)) (ht : tokens t = some ts) :
    tokens (lead ++ t) = some (found ++ ts) := by
  obtain ⟨more, last, ending, hadvance, hlast, rfl⟩ := exists_advance_of_tokens ht
  rw [tokens_of_advance (advance_trans hlead hadvance) hlast, List.append_assoc]

/-- The text is read as a condition of the level. -/
def Spells (level : Nat) (t : Text) (c : Condition) : Prop :=
  ∃ ts, tokens t = some ts ∧ Derives level ts c

theorem read_eq_some_iff {t : Text} {c : Condition} :
    read t = some c ↔ Spells Join.either.level t c := by
  rw [read, Option.bind_eq_some_iff, Spells]
  simp only [conditionOf_eq_some_iff]

/-- The tokens of two texts with a sign between them. -/
theorem tokens_join {t u between rest : Text} (join : Join) {before after : List Token}
    (hbetween : between = ' ' :: rest)
    (hjoin : advance .between between = some ([.join join], .between))
    (ht : tokens t = some before) (hu : tokens u = some after) :
    tokens (t ++ (between ++ u)) = some (before ++ .join join :: after) := by
  have hlead := tokens_of_lead hjoin hu
  rw [hbetween, List.cons_append] at hlead ⊢
  exact tokens_append ⟨by decide, by decide⟩ ht hlead

namespace Spells

variable {level : Nat} {t u : Text} {p q c : Condition}

theorem lift (h : Spells level t c) : Spells (level + 1) t c := by
  obtain ⟨ts, hts, hc⟩ := h
  exact ⟨ts, hts, hc.lift⟩

theorem group (h : Spells Join.either.level t c) :
    Spells 0 ("(".toList ++ (t ++ ")".toList)) c := by
  obtain ⟨ts, hts, hc⟩ := h
  have hclosing : tokens (t ++ ")".toList) = some (ts ++ [.closing]) :=
    tokens_append ⟨by decide, by decide⟩ hts rfl
  exact ⟨_, tokens_of_lead rfl hclosing, .group hc⟩

theorem both (ht : Spells Join.both.level t p) (hu : Spells 0 u q) :
    Spells Join.both.level (t ++ (" && ".toList ++ u)) (.joined .both p q) := by
  obtain ⟨ts, hts, hp⟩ := ht
  obtain ⟨us, hus, hq⟩ := hu
  exact ⟨_, tokens_join .both rfl rfl hts hus, .joined hp hq.lift⟩

/-- Alternatives on both sides of a sign are all alternatives of one condition. The sign groups to
the left, so it need not be the disjunction of the two. -/
theorem exists_either (ht : Spells Join.either.level t p) (hu : Spells Join.either.level u q) :
    ∃ c, Spells Join.either.level (t ++ (" || ".toList ++ u)) c ∧
      ∀ context, c.holds context = (p.holds context || q.holds context) := by
  obtain ⟨ts, hts, hp⟩ := ht
  obtain ⟨us, hus, hq⟩ := hu
  obtain ⟨c, hc, hholds⟩ := hp.exists_either hq
  exact ⟨c, ⟨_, tokens_join .either rfl rfl hts hus, hc⟩, hholds⟩

end Spells

end Expression
end CiPipeline
