import CiPipeline.Proofs.WrittenForm

/-!
# CiPipeline.Proofs.FlowSequence

Which lists of values are known by the text in brackets that they are written as.

* `Text.infix_of_infix_indent` — indentation brings no text of one line in but spaces.
* `Separable`         — a value that is written in quotes, or holds no separator.
* `Follows`           — what may stand behind an item: nothing, or a separator.
* `write_append_inj`  — a separable item ends where its written form does.
* `flowList_faithful` — the text has one line if the items have, and tells lists of separable items
                        apart, but for no item and one empty item.
* `flowList_mixed`    — a separator in a plain item is one between items, and a newline stays.
-/

namespace CiPipeline

namespace Text

variable {s t : Text}

theorem infix_joined_of_mem (sep : Text) {texts : List Text} (ht : t ∈ texts) :
    t <:+: joined sep texts := by
  cases texts with
  | nil => cases ht
  | cons first others =>
    rw [joined_cons_flatMap]
    rcases List.mem_cons.mp ht with rfl | ht
    · exact (List.prefix_append _ _).isInfix
    · have hpiece : sep ++ t <:+: others.flatMap (sep ++ ·) :=
        List.infix_of_mem_flatten (List.mem_map_of_mem ht)
      exact ((List.suffix_append sep t).isInfix.trans hpiece).trans
        (List.suffix_append _ _).isInfix

/-- What has no newline in it stands in one of the lines. -/
theorem exists_line_of_infix (hs : '\n' ∉ s) (h : s <:+: t) : ∃ line ∈ lines t, s <:+: line := by
  obtain ⟨before, behind, rfl⟩ := h
  rw [List.append_assoc]
  induction before with
  | nil =>
    obtain ⟨line, more, hlines⟩ := exists_lines behind
    refine ⟨s ++ line, ?_, (List.prefix_append s line).isInfix⟩
    rw [List.nil_append, lines_append hs hlines]
    exact List.mem_cons_self
  | cons c before ih =>
    obtain ⟨line, hline, hinfix⟩ := ih
    rw [List.cons_append]
    by_cases hc : c = '\n'
    · rw [hc, lines_newline]
      exact ⟨line, List.mem_cons_of_mem [] hline, hinfix⟩
    · obtain ⟨first, more, hlines⟩ := exists_lines (before ++ (s ++ behind))
      rw [lines_cons hc hlines]
      rw [hlines] at hline
      rcases List.mem_cons.mp hline with rfl | hline
      · exact ⟨c :: line, List.mem_cons_self, List.infix_cons hinfix⟩
      · exact ⟨line, List.mem_cons_of_mem _ hline, hinfix⟩

theorem infix_of_infix_spaces {c : Char} (hc : c ≠ ' ') {n : Nat}
    (h : c :: s <:+: spaces n ++ t) : c :: s <:+: t := by
  induction n with
  | zero => exact h
  | succ n ih =>
    have hspaces : spaces (n + 1) = ' ' :: spaces n := List.replicate_succ
    rw [hspaces, List.cons_append, List.infix_cons_iff] at h
    rcases h with hprefix | hinfix
    · exact absurd (List.cons_prefix_cons.mp hprefix).1 hc
    · exact ih hinfix

theorem infix_of_infix_indent {c : Char} (hc : c ≠ ' ') (hs : '\n' ∉ c :: s) {level : Int}
    (h : c :: s <:+: indent level t) : c :: s <:+: t := by
  obtain ⟨indented, hline, hinfix⟩ := exists_line_of_infix hs h
  rw [lines_indent, List.mem_map] at hline
  obtain ⟨line, hmem, rfl⟩ := hline
  have hwithin : c :: s <:+: line := by
    cases hb : blank line with
    | true =>
      rw [indentLine_of_blank hb] at hinfix
      cases List.infix_nil.mp hinfix
    | false =>
      rw [indentLine_of_not_blank hb] at hinfix
      exact infix_of_infix_spaces hc hinfix
  have hline := infix_joined_of_mem ['\n'] hmem
  rw [joined_lines] at hline
  exact hwithin.trans hline

end Text

namespace Scalar

/-- Quotes keep a separator inside a value, and nothing else does. -/
def Separable (item : Text) : Prop :=
  ('\n' ∉ item ∧ isPlain item = false) ∨ ¬ ", ".toList <:+: item

instance (item : Text) : Decidable (Separable item) := inferInstanceAs (Decidable (_ ∨ _))

def Follows (rest : Text) : Prop := rest = [] ∨ ∃ more, rest = ',' :: ' ' :: more

/-! ## One item -/

variable {t u rest rest' : Text}

theorem Follows.head?_ne (h : Follows rest) {c : Char} (hc : c ≠ ',') : rest.head? ≠ some c := by
  rcases h with rfl | ⟨more, rfl⟩
  · simp
  · simpa using Ne.symm hc

/-- A text cannot be cut inside the separator behind it, nor does it hold one. -/
theorem eq_nil_of_follows {cut : Text} (h : rest = cut ++ rest') (hrest : Follows rest)
    (hrest' : Follows rest') (hseparator : ¬ ", ".toList <:+: t ++ cut) : cut = [] := by
  rcases hrest with rfl | ⟨more, rfl⟩
  · exact (List.append_eq_nil_iff.mp h.symm).1
  · match cut, h with
    | [], _ => rfl
    | [c], h =>
      obtain ⟨-, rfl⟩ := List.cons.inj h
      exact absurd rfl (hrest'.head?_ne (by decide))
    | c :: d :: cut, h =>
      rw [List.cons_append, List.cons_append, List.cons.injEq, List.cons.injEq] at h
      obtain ⟨rfl, rfl, -⟩ := h
      exact absurd ⟨t, cut, by simp⟩ hseparator

theorem append_inj_of_follows (hrest : Follows rest) (hrest' : Follows rest')
    (ht : ¬ ", ".toList <:+: t) (hu : ¬ ", ".toList <:+: u) (h : t ++ rest = u ++ rest') :
    t = u ∧ rest = rest' := by
  rcases List.append_eq_append_iff.mp h with ⟨cut, rfl, hcut⟩ | ⟨cut, rfl, hcut⟩
  · obtain rfl := eq_nil_of_follows hcut hrest hrest' hu
    exact ⟨(List.append_nil t).symm, hcut⟩
  · obtain rfl := eq_nil_of_follows hcut hrest' hrest ht
    exact ⟨List.append_nil u, hcut.symm⟩

/-- A separable item is written in quotes, or with no quote in front and no separator inside. -/
theorem quoted_or_clear (ht : Separable t) :
    write t = quoted t ∨ (write t).head? ≠ some '\'' ∧ ¬ ", ".toList <:+: write t := by
  rcases ht with ⟨hflat, hplain⟩ | hclear
  · exact .inl (write_of_not_plain hflat hplain)
  · by_cases hnewline : '\n' ∈ t
    · right
      rw [write_of_newline hnewline, block]
      refine ⟨by simp, fun hinfix => ?_⟩
      have hindent : ", ".toList <:+: Text.indent 1 t := by
        simpa [List.infix_cons_iff] using hinfix
      exact hclear (Text.infix_of_infix_indent (by decide) (by decide) hindent)
    · cases hp : isPlain t with
      | true =>
        right
        rw [write_of_plain hnewline hp]
        exact ⟨head?_of_isPlain hp (by decide), hclear⟩
      | false => exact .inl (write_of_not_plain hnewline hp)

theorem clear_append_ne_quoted (ht : t.head? ≠ some '\'') (hrest : Follows rest) :
    t ++ rest ≠ quoted u ++ rest' := by
  intro h
  have hhead : (t ++ rest).head? = some '\'' := by
    rw [h]
    rfl
  cases t with
  | nil => exact hrest.head?_ne (by decide) hhead
  | cons c t => exact ht hhead

theorem write_append_inj (ht : Separable t) (hu : Separable u) (hrest : Follows rest)
    (hrest' : Follows rest') (h : write t ++ rest = write u ++ rest') :
    Alike t u ∧ rest = rest' := by
  rcases quoted_or_clear ht with hquoted | ⟨hhead, hclear⟩
  · rcases quoted_or_clear hu with hquoted' | ⟨hhead', -⟩
    · rw [hquoted, hquoted'] at h
      obtain ⟨rfl, hbehind⟩ :=
        quoted_append_inj (hrest.head?_ne (by decide)) (hrest'.head?_ne (by decide)) h
      exact ⟨.inl rfl, hbehind⟩
    · rw [hquoted] at h
      exact absurd h.symm (clear_append_ne_quoted hhead' hrest')
  · rcases quoted_or_clear hu with hquoted' | ⟨-, hclear'⟩
    · rw [hquoted'] at h
      exact absurd h (clear_append_ne_quoted hhead hrest)
    · obtain ⟨hwrite, hbehind⟩ := append_inj_of_follows hrest hrest' hclear hclear' h
      exact ⟨write_eq_write_iff.mp hwrite, hbehind⟩

/-! ## Lists of items -/

/-- An item and the separator before it. -/
def appended (item : String) : Text := ", ".toList ++ write item

theorem follows_appended (items : List String) : Follows (items.flatMap appended) := by
  cases items with
  | nil => exact .inl rfl
  | cons item items => exact .inr ⟨write item ++ items.flatMap appended, rfl⟩

theorem appended_inj {xs ys : List String} (hx : ∀ item ∈ xs, Separable item.toList)
    (hy : ∀ item ∈ ys, Separable item.toList) :
    xs.flatMap appended = ys.flatMap appended ↔
      List.Forall₂ (fun x y : String => Alike x y) xs ys := by
  constructor
  · refine forall₂_of_flatMap_eq (P := fun items => ∀ item ∈ items, Separable item.toList)
      ?_ ?_ ?_ hx hy
    · intro item
      simp [appended]
    · exact fun _ _ hall => (List.forall_mem_cons.mp hall).2
    · intro x xs y ys hall hall' h
      rw [appended, appended, List.append_assoc, List.append_assoc] at h
      exact write_append_inj (hall x List.mem_cons_self) (hall' y List.mem_cons_self)
        (follows_appended xs) (follows_appended ys) (List.append_cancel_left h)
  · apply flatMap_eq_of_forall₂
    intro x y halike
    rw [appended, appended, write_eq_write_iff.mpr halike]

theorem flowList_cons (item : String) (items : List String) :
    flowList (item :: items) = '[' :: (write item ++ items.flatMap appended) ++ "]".toList := by
  rw [flowList, List.map_cons, Text.joined_cons_flatMap, List.flatMap_map]
  rfl

/-- The brackets are the same around all lists. -/
theorem flowList_cons_inj {x y : String} {xs ys : List String} :
    flowList (x :: xs) = flowList (y :: ys) ↔
      (x :: xs).flatMap appended = (y :: ys).flatMap appended := by
  rw [flowList_cons, flowList_cons, List.append_cancel_right_eq, List.cons.injEq,
    List.flatMap_cons, List.flatMap_cons, appended, appended, List.append_assoc,
    List.append_assoc, List.append_cancel_left_eq]
  simp

/-- No item is written as one empty item is. -/
theorem flowList_cons_eq_nil {x : String} {xs : List String}
    (hx : ∀ item ∈ x :: xs, Separable item.toList) :
    flowList (x :: xs) = flowList [] ↔ x :: xs = [""] := by
  have hempty : ∀ item ∈ [""], Separable item.toList := by decide
  rw [show flowList [] = flowList [""] from rfl, flowList_cons_inj, appended_inj hx hempty]
  constructor
  · rintro (_ | ⟨halike, hrest⟩)
    cases hrest
    obtain rfl : x = "" := String.toList_inj.mp (halike.symm.eq_of_flat (by decide)).symm
    rfl
  · intro h
    rw [h]
    exact .cons (.inl rfl) .nil

theorem newline_mem_flowList_iff (items : List String) :
    '\n' ∈ flowList items ↔ ∃ item ∈ items, '\n' ∈ item.toList := by
  constructor
  · intro h
    refine Classical.byContradiction fun hnone => newline_notMem_flowList ?_ h
    intro item hitem hnewline
    exact hnone ⟨item, hitem, hnewline⟩
  · rintro ⟨item, hitem, hnewline⟩
    have hwrite : '\n' ∈ write item := by
      rw [write_of_newline hnewline, block]
      simp
    have hwritten : write item ∈ items.map fun item : String => write item :=
      List.mem_map_of_mem hitem
    rw [flowList, List.mem_append, List.mem_append]
    exact .inl (.inr ((Text.infix_joined_of_mem ", " hwritten).subset hwrite))

theorem eq_of_alike {xs ys : List String} (hflat : ∀ item ∈ xs, '\n' ∉ item.toList)
    (h : List.Forall₂ (fun x y : String => Alike x y) xs ys) : xs = ys := by
  induction h with
  | nil => rfl
  | cons hfirst _ ih =>
    rw [List.forall_mem_cons] at hflat
    rw [String.toList_inj.mp (hfirst.eq_of_flat hflat.1), ih hflat.2]

/-- A list has a newline in its text if and only if an item has one. Lists of separable items are
written alike only if the items are in turn, and lists on one line only if they are equal; but no
item and one empty item look the same. -/
theorem flowList_faithful (xs ys : List String) :
    ('\n' ∈ flowList xs ↔ ∃ item ∈ xs, '\n' ∈ item.toList) ∧
    ((∀ item ∈ xs, Separable item.toList) → (∀ item ∈ ys, Separable item.toList) →
      (flowList xs = flowList ys ↔ List.Forall₂ (fun x y : String => Alike x y) xs ys ∨
        xs = [] ∧ ys = [""] ∨ xs = [""] ∧ ys = []) ∧
      ('\n' ∉ flowList xs → flowList xs = flowList ys →
        xs = ys ∨ xs = [] ∧ ys = [""] ∨ xs = [""] ∧ ys = [])) := by
  refine ⟨newline_mem_flowList_iff xs, fun hx hy => ?_⟩
  have hiff : flowList xs = flowList ys ↔ List.Forall₂ (fun x y : String => Alike x y) xs ys ∨
      xs = [] ∧ ys = [""] ∨ xs = [""] ∧ ys = [] := by
    cases xs with
    | nil =>
      cases ys with
      | nil => simp
      | cons y ys =>
        rw [eq_comm, flowList_cons_eq_nil hy]
        simp
    | cons x xs =>
      cases ys with
      | nil =>
        rw [flowList_cons_eq_nil hx]
        simp
      | cons y ys =>
        rw [flowList_cons_inj, appended_inj hx hy]
        simp
  refine ⟨hiff, fun hline h => ?_⟩
  have hflat : ∀ item ∈ xs, '\n' ∉ item.toList := fun item hitem hnewline =>
    hline ((newline_mem_flowList_iff xs).mpr ⟨item, hitem, hnewline⟩)
  exact (hiff.mp h).imp_left (eq_of_alike hflat)

/-- Separators and quotes on either side of the end of an item. -/
theorem flowList_faithful_quoted :
    (∀ item ∈ ["-a', 'b", "c,"], Separable item.toList) ∧
    (∀ item ∈ ["-a'", "'b", "c,"], Separable item.toList) ∧
    '\n' ∉ flowList ["-a', 'b", "c,"] ∧
    flowList ["-a', 'b", "c,"] ≠ flowList ["-a'", "'b", "c,"] := by
  have hx : ∀ item ∈ ["-a', 'b", "c,"], Separable item.toList := by decide
  have hy : ∀ item ∈ ["-a'", "'b", "c,"], Separable item.toList := by decide
  obtain ⟨hnewline, hseparable⟩ := flowList_faithful ["-a', 'b", "c,"] ["-a'", "'b", "c,"]
  have hline : '\n' ∉ flowList ["-a', 'b", "c,"] := by
    rw [hnewline]
    decide
  refine ⟨hx, hy, hline, fun h => ?_⟩
  exact absurd ((hseparable hx hy).2 hline h) (by decide)

/-- A plain item that holds a separator is written as two items are, and one of two lines stays
so. -/
theorem flowList_mixed : '\n' ∈ flowList ["a, b", "c\nd"] ∧
    flowList ["a, b", "c\nd"] = flowList ["a", "b", "c\nd"] ∧
    ["a, b", "c\nd"] ≠ ["a", "b", "c\nd"] := by
  decide

end Scalar
end CiPipeline
