import CiPipeline.Path

/-!
# CiPipeline.Proofs.PathResolution

Where a path leads, told from its parts alone.

* `Path.origin`  — the location that the parts of a path start from.
* `Path.upTo`, `Path.Passes` — the first parts of a path, and the locations it leads over.
* `cancel_append` — the way of all parts is that of the last ones, from where the first ones lead.
* `cancel_append_of_down` — parts without `..` lead straight down.
* `down_resolve`  — no path leads to a location with `..` in it.
* `passes_prefix` — such a path only leads over what its end is under.
-/

namespace CiPipeline
namespace Path

def origin (current : Location) (path : Path) : Location :=
  if path.isAbsolute then [] else current

/-- The path as far as its `n`-th part. -/
def upTo (path : Path) (n : Nat) : Path := { path with parts := path.parts.take n }

/-- The path leads over a location, or to it. -/
def Passes (current : Location) (path : Path) (location : Location) : Prop :=
  ∃ n, location = (path.upTo n).resolve current

theorem origin_upTo (current : Location) (path : Path) (n : Nat) :
    (path.upTo n).origin current = path.origin current := rfl

theorem upTo_length (path : Path) : path.upTo path.parts.length = path := by
  rw [upTo, List.take_length]

theorem resolve_eq (current : Location) (path : Path) :
    path.resolve current = cancel (path.origin current ++ path.parts) := by
  rw [resolve, origin]
  split <;> rfl

theorem resolve_nil (path : Path) : path.resolve [] = cancel path.parts := by
  rw [resolve]
  split <;> rfl

/-! ## Cancelling -/

theorem cancelOnto_cons (way : List String) (part : String) (rest : List String) :
    cancelOnto way (part :: rest) =
      cancelOnto (if part = ".." then way.tail else part :: way) rest := by
  rw [cancelOnto]
  split <;> rfl

theorem cancelOnto_append (way parts more : List String) :
    cancelOnto way (parts ++ more) = cancelOnto (cancelOnto way parts).reverse more := by
  induction parts generalizing way with
  | nil => rw [cancelOnto, List.reverse_reverse, List.nil_append]
  | cons part rest ih => rw [List.cons_append, cancelOnto_cons, cancelOnto_cons, ih]

theorem cancel_append (parts more : List String) :
    cancel (parts ++ more) = cancelOnto (cancel parts).reverse more :=
  cancelOnto_append [] parts more

theorem cancelOnto_of_down {parts : List String} (h : ".." ∉ parts) (way : List String) :
    cancelOnto way parts = way.reverse ++ parts := by
  induction parts generalizing way with
  | nil => rw [cancelOnto, List.append_nil]
  | cons part rest ih =>
    rw [List.mem_cons, not_or] at h
    rw [cancelOnto_cons, if_neg (fun e => h.1 e.symm), ih h.2, List.reverse_cons,
      List.append_assoc, List.singleton_append]

theorem cancel_append_of_down (parts : List String) {more : List String} (h : ".." ∉ more) :
    cancel (parts ++ more) = cancel parts ++ more := by
  rw [cancel_append, cancelOnto_of_down h, List.reverse_reverse]

theorem cancelOnto_replicate (way : List String) (n : Nat) (parts : List String) :
    cancelOnto way (List.replicate n ".." ++ parts) = cancelOnto (way.drop n) parts := by
  induction n generalizing way with
  | zero => rfl
  | succ n ih =>
    rw [List.replicate_succ, List.cons_append, cancelOnto_cons, if_pos rfl, ih, List.drop_tail]

theorem mem_of_mem_cancelOnto {way parts : List String} {part : String}
    (h : part ∈ cancelOnto way parts) : part ∈ way ∨ part ∈ parts := by
  induction parts generalizing way with
  | nil =>
    rw [cancelOnto, List.mem_reverse] at h
    exact .inl h
  | cons first rest ih =>
    rw [cancelOnto_cons] at h
    rcases ih h with hway | hrest
    · split at hway
      · exact .inl (List.mem_of_mem_tail hway)
      · rcases List.mem_cons.mp hway with rfl | hway
        · exact .inr List.mem_cons_self
        · exact .inl hway
    · exact .inr (List.mem_cons_of_mem first hrest)

theorem down_cancelOnto {way parts : List String} (h : ".." ∉ way) :
    ".." ∉ cancelOnto way parts := by
  induction parts generalizing way with
  | nil => simpa [cancelOnto] using h
  | cons part rest ih =>
    rw [cancelOnto_cons]
    split
    · exact ih fun hmem => h (List.mem_of_mem_tail hmem)
    · rename_i hpart
      exact ih (by simpa using ⟨Ne.symm hpart, h⟩)

/-- No location that a path names has a step back in it. -/
theorem down_resolve (path : Path) (current : Location) : ".." ∉ path.resolve current :=
  down_cancelOnto List.not_mem_nil

/-! ## What a path leads over -/

/-- Past its last part a path leads nowhere else. -/
theorem passes_iff_exists_le {current location : Location} {path : Path} :
    path.Passes current location ↔
      ∃ n ∈ List.range (path.parts.length + 1), location = (path.upTo n).resolve current := by
  constructor
  · rintro ⟨n, rfl⟩
    by_cases hn : n < path.parts.length + 1
    · exact ⟨n, List.mem_range.mpr hn, rfl⟩
    · refine ⟨path.parts.length, List.mem_range.mpr (Nat.lt_succ_self _), ?_⟩
      rw [upTo_length, upTo, List.take_of_length_le (by omega)]
  · rintro ⟨n, -, hlocation⟩
    exact ⟨n, hlocation⟩

instance (current location : Location) (path : Path) : Decidable (path.Passes current location) :=
  decidable_of_iff _ passes_iff_exists_le.symm

theorem passes_prefix {current location : Location} {path : Path} (h : ".." ∉ path.parts)
    (hpasses : path.Passes current location) : location <+: path.resolve current := by
  obtain ⟨n, rfl⟩ := hpasses
  have htake : ".." ∉ path.parts.take n := fun hmem => h (List.mem_of_mem_take hmem)
  have hfirst : (path.upTo n).resolve current =
      cancel (path.origin current) ++ path.parts.take n := by
    rw [resolve_eq, origin_upTo]
    exact cancel_append_of_down _ htake
  rw [hfirst, resolve_eq, cancel_append_of_down _ h]
  exact (List.prefix_append_right_inj _).mpr (List.take_prefix n path.parts)

end Path
end CiPipeline
