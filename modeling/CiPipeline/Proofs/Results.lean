import Mathlib.Data.List.Forall2

/-!
# CiPipeline.Proofs.Results

Lists of results taken as one result.

* `mapM_eq_ok_iff`           — all of them come out.
* `exists_mem_of_mapM_error` — one of them is the cause of a failure.
* `mapM_append_of_ok`        — what more items add to a list that came out.
-/

namespace CiPipeline

variable {ε α β : Type} {f : α → Except ε β}

theorem exists_ok_of_isOk {r : Except ε α} (h : r.isOk = true) : ∃ a, r = .ok a := by
  cases r with
  | ok a => exact ⟨a, rfl⟩
  | error e => cases h

theorem exists_of_map_ok {r : Except ε α} {g : α → β} {b : β} (h : r.map g = .ok b) :
    ∃ a, r = .ok a ∧ b = g a := by
  cases r with
  | error e => cases h
  | ok a =>
    cases h
    exact ⟨a, rfl, rfl⟩

theorem mapM_cons_ok {x : α} {y : β} (h : f x = .ok y) (xs : List α) :
    (x :: xs).mapM f = (xs.mapM f).map (y :: ·) := by
  rw [List.mapM_cons, h]
  cases xs.mapM f <;> rfl

theorem mapM_cons_error {x : α} {e : ε} (h : f x = .error e) (xs : List α) :
    (x :: xs).mapM f = .error e := by
  rw [List.mapM_cons, h]
  rfl

theorem mapM_eq_ok_iff {xs : List α} {ys : List β} :
    xs.mapM f = .ok ys ↔ List.Forall₂ (fun x y => f x = .ok y) xs ys := by
  induction xs generalizing ys with
  | nil => cases ys <;> simp [pure, Except.pure]
  | cons x xs ih =>
    cases hx : f x with
    | error e =>
      rw [mapM_cons_error hx]
      constructor
      · intro h
        cases h
      · intro h
        cases h with
        | cons hy _ => rw [hx] at hy; cases hy
    | ok y =>
      rw [mapM_cons_ok hx]
      cases ys with
      | nil => cases xs.mapM f <;> simp [Except.map]
      | cons z zs =>
        rw [List.forall₂_cons, ← ih, hx]
        cases xs.mapM f <;> simp [Except.map]

theorem exists_mem_of_mapM_error {xs : List α} {e : ε} (h : xs.mapM f = .error e) :
    ∃ x ∈ xs, f x = .error e := by
  induction xs with
  | nil => cases h
  | cons x xs ih =>
    cases hx : f x with
    | error e' =>
      rw [mapM_cons_error hx] at h
      cases h
      exact ⟨x, List.mem_cons_self, hx⟩
    | ok y =>
      rw [mapM_cons_ok hx] at h
      cases hxs : xs.mapM f with
      | error e' =>
        rw [hxs] at h
        cases h
        obtain ⟨z, hz, hfz⟩ := ih hxs
        exact ⟨z, List.mem_cons_of_mem x hz, hfz⟩
      | ok ys => rw [hxs] at h; cases h

/-- Items put at the end are looked at once the others came out. -/
theorem mapM_append_of_ok {xs : List α} {ys : List β} (h : xs.mapM f = .ok ys) (more : List α) :
    (xs ++ more).mapM f = (more.mapM f).map (ys ++ ·) := by
  rw [List.mapM_append, h]
  cases more.mapM f <;> rfl

/-- A function on the outcomes may as well be applied to them one by one. -/
theorem mapM_map {γ : Type} (g : β → γ) (xs : List α) :
    xs.mapM (fun x => (f x).map g) = (xs.mapM f).map (List.map g) := by
  induction xs with
  | nil => rfl
  | cons x xs ih =>
    cases hx : f x with
    | error e =>
      rw [mapM_cons_error hx, mapM_cons_error (e := e) (by rw [hx]; rfl)]
      rfl
    | ok y =>
      rw [mapM_cons_ok hx, mapM_cons_ok (y := g y) (by rw [hx]; rfl), ih]
      cases xs.mapM f <;> rfl

/-- A list between two lists, from what is between their items. -/
theorem exists_forall₂_between {γ : Type} {R : α → β → Prop} {S : β → γ → Prop} {xs : List α}
    {zs : List γ} (h : List.Forall₂ (fun x z => ∃ y, R x y ∧ S y z) xs zs) :
    ∃ ys, List.Forall₂ R xs ys ∧ List.Forall₂ S ys zs := by
  induction h with
  | nil => exact ⟨[], .nil, .nil⟩
  | cons hxz _ ih =>
    obtain ⟨y, hr, hs⟩ := hxz
    obtain ⟨ys, hrs, hss⟩ := ih
    exact ⟨y :: ys, .cons hr hrs, .cons hs hss⟩

end CiPipeline
