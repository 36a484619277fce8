/-!
# CiPipeline.Table

Tables of values under distinct keys, in the order in which the keys first came.

* `Table`        — the entries of a table.
* `Table.empty`  — the table without entries.
* `Table.insert` — a key that is present keeps its place and takes the new value.
* `Table.ofList` — the entries of a list, inserted one after the other.
* `Table.get?`   — the value under a key.
* `Fields`       — tables of named values.
-/

namespace CiPipeline

structure Table (κ α : Type) where
  entries : List (κ × α)
  distinct : (entries.map Prod.fst).Nodup

abbrev Fields (α : Type) := Table String α

namespace Table

variable {κ α : Type}

def empty : Table κ α := ⟨[], List.nodup_nil⟩

def put [DecidableEq κ] (key : κ) (value : α) : List (κ × α) → List (κ × α)
  | [] => [(key, value)]
  | entry :: rest =>
    if entry.1 = key then (key, value) :: rest else entry :: put key value rest

/-- The keys after `put`: unchanged if the key is present, and one more at the end if not. -/
theorem keys_put [DecidableEq κ] (key : κ) (value : α) (entries : List (κ × α)) :
    (put key value entries).map Prod.fst =
      if key ∈ entries.map Prod.fst then entries.map Prod.fst
      else entries.map Prod.fst ++ [key] := by
  induction entries with
  | nil => rfl
  | cons entry rest ih =>
    by_cases h : entry.1 = key
    · simp [put, h]
    · have h' : ¬ key = entry.1 := fun e => h e.symm
      simp only [put, if_neg h, List.map_cons, ih, List.mem_cons, h', false_or]
      split <;> simp

theorem nodup_put [DecidableEq κ] (key : κ) (value : α) (entries : List (κ × α))
    (distinct : (entries.map Prod.fst).Nodup) :
    ((put key value entries).map Prod.fst).Nodup := by
  rw [keys_put]
  split
  · exact distinct
  · rename_i h
    rw [List.nodup_append]
    refine ⟨distinct, by simp, ?_⟩
    intro a ha b hb e
    rw [List.mem_singleton] at hb
    exact h (hb ▸ e ▸ ha)

def insert [DecidableEq κ] (table : Table κ α) (key : κ) (value : α) : Table κ α :=
  ⟨put key value table.entries, nodup_put key value table.entries table.distinct⟩

def ofList [DecidableEq κ] (entries : List (κ × α)) : Table κ α :=
  entries.foldl (fun table entry => table.insert entry.1 entry.2) empty

/-- The table without the keys that a test picks out. -/
def eraseWhere (table : Table κ α) (test : κ → Bool) : Table κ α where
  entries := table.entries.filter fun entry => !test entry.1
  distinct := (List.filter_sublist.map Prod.fst).nodup table.distinct

def get? [DecidableEq κ] (table : Table κ α) (key : κ) : Option α :=
  table.entries.lookup key

def isEmpty (table : Table κ α) : Bool := table.entries.isEmpty

instance [DecidableEq κ] [DecidableEq α] : DecidableEq (Table κ α) := fun a b =>
  decidable_of_iff (a.entries = b.entries)
    ⟨fun h => by cases a; cases b; cases h; rfl, fun h => h ▸ rfl⟩

end Table

end CiPipeline
