import CiPipeline.FileTree
import Mathlib.Data.List.Induction

/-!
# CiPipeline.Proofs.FileTree

What operations on a file system leave as it was, and what they find.

* `get?_insert_self`, `get?_insert_of_ne` — an insertion is about one location.
* `walk_keeps`             — what one part of a way keeps is kept by the whole way.
* `KeepsDirectories.locate` — ways that lead somewhere still lead there while directories are kept.
* `makeDirectories_child`  — a directory is made at once, or after the one above it.
* `EmptyAt`                — a path that leads to a directory with nothing in it.
* `EmptyAt.makeDirectories` — from there, any number of new directories is made at once.
-/

namespace CiPipeline

namespace Table

variable {κ α : Type} [DecidableEq κ]

theorem lookup_put_self (key : κ) (value : α) (entries : List (κ × α)) :
    (put key value entries).lookup key = some value := by
  induction entries with
  | nil => simp [put]
  | cons entry rest ih =>
    by_cases h : entry.1 = key
    · simp [put, h]
    · have hne : (key == entry.1) = false := by simpa using Ne.symm h
      rw [put, if_neg h, List.lookup_cons, hne]
      exact ih

theorem lookup_put_of_ne {key other : κ} (hne : other ≠ key) (value : α)
    (entries : List (κ × α)) : (put key value entries).lookup other = entries.lookup other := by
  have hkey : (other == key) = false := by simpa using hne
  induction entries with
  | nil => simp [put, List.lookup_cons, hkey]
  | cons entry rest ih =>
    by_cases h : entry.1 = key
    · rw [put, if_pos h, List.lookup_cons, List.lookup_cons, h, hkey]
    · rw [put, if_neg h, List.lookup_cons, List.lookup_cons, ih]

end Table

namespace Path

theorem holdsNull_child (path : Path) (name : String) :
    (path.child name).holdsNull = (path.holdsNull || name.toList.contains '\x00') := by
  simp [holdsNull, child]

end Path

namespace FileTree

variable {tree before after : FileTree} {current location place : Location} {path : Path} {name : String}

theorem get?_insert_self (h : location ≠ []) (entry : Entry) :
    (tree.insert location entry).get? location = some entry := by
  cases location with
  | nil => exact absurd rfl h
  | cons part rest => exact Table.lookup_put_self _ _ _

theorem get?_insert_of_ne {other : Location} (h : other ≠ location) (entry : Entry) :
    (tree.insert location entry).get? other = tree.get? other := by
  cases other with
  | nil => rfl
  | cons part rest => exact Table.lookup_put_of_ne h _ _

/-! ## Ways -/

/-- One part of a way, from a directory. -/
def next (location : Location) (part : String) : Location :=
  if part = ".." then location.dropLast else location ++ [part]

theorem walk_cons_of_directory (h : tree.get? location = some .directory) (part : String)
    (rest : List String) :
    tree.walk location (part :: rest) = tree.walk (next location part) rest := by
  rw [walk, h]
  rfl

/-- Nothing else has an inside. -/
theorem directory_of_walk_cons {part : String} {rest : List String} {start goal : Location}
    (h : tree.walk start (part :: rest) = .ok goal) : tree.get? start = some .directory := by
  cases hentry : tree.get? start with
  | none => rw [walk, hentry] at h; cases h
  | some entry =>
    cases entry with
    | directory => rfl
    | file content => rw [walk, hentry] at h; cases h
    | config config => rw [walk, hentry] at h; cases h

/-- What one part of a way keeps is kept by the whole way. -/
theorem walk_keeps {P : Location → Prop}
    (hnext : ∀ place part, tree.get? place = some .directory → P place → P (next place part))
    {way : List String} {start goal : Location} (hstart : P start)
    (h : tree.walk start way = .ok goal) : P goal := by
  induction way generalizing start with
  | nil =>
    cases h
    exact hstart
  | cons part rest ih =>
    have hdirectory := directory_of_walk_cons h
    rw [walk_cons_of_directory hdirectory] at h
    exact ih (hnext start part hdirectory hstart) h

theorem walk_append_of_ok {way : List String} {start goal : Location}
    (h : tree.walk start way = .ok goal) (more : List String) :
    tree.walk start (way ++ more) = tree.walk goal more := by
  induction way generalizing start with
  | nil =>
    cases h
    rfl
  | cons part rest ih =>
    have hdirectory := directory_of_walk_cons h
    rw [walk_cons_of_directory hdirectory] at h
    rw [List.cons_append, walk_cons_of_directory hdirectory, ih h]

theorem walk_append_of_error {way : List String} {start : Location} {cause : SystemError.Cause}
    (h : tree.walk start way = .error cause) (more : List String) :
    tree.walk start (way ++ more) = .error cause := by
  induction way generalizing start with
  | nil => cases h
  | cons part rest ih =>
    rw [walk] at h
    rw [List.cons_append, walk]
    cases hentry : tree.get? start with
    | none => rw [hentry] at h; exact h
    | some entry =>
      rw [hentry] at h
      cases entry with
      | directory => exact ih h
      | file content => exact h
      | config config => exact h

/-- Every directory of the one tree is a directory of the other. -/
def KeepsDirectories (before after : FileTree) : Prop :=
  ∀ location, before.get? location = some .directory → after.get? location = some .directory

/-- A way only looks at the directories it passes. -/
theorem KeepsDirectories.walk (h : KeepsDirectories before after) {way : List String}
    {start goal : Location} (hwalk : before.walk start way = .ok goal) :
    after.walk start way = .ok goal := by
  induction way generalizing start with
  | nil => exact hwalk
  | cons part rest ih =>
    have hdirectory := directory_of_walk_cons hwalk
    rw [walk_cons_of_directory hdirectory] at hwalk
    rw [walk_cons_of_directory (h start hdirectory)]
    exact ih hwalk

theorem keepsDirectories_insert {entry : Entry}
    (hfree : entry = .directory ∨ tree.get? location ≠ some .directory) :
    KeepsDirectories tree (tree.insert location entry) := by
  intro place hdirectory
  by_cases hplace : place = location
  · subst hplace
    obtain rfl := hfree.resolve_right fun hne => hne hdirectory
    cases place with
    | nil => rfl
    | cons part rest => exact get?_insert_self (List.cons_ne_nil part rest) _
  · rw [get?_insert_of_ne hplace, hdirectory]

/-- The parts that a path is looked up by, from the root of the file system. -/
def way (current : Location) (path : Path) : List String :=
  if path.isAbsolute then path.parts else current ++ path.parts

theorem way_child (current : Location) (path : Path) (name : String) :
    way current (path.child name) = way current path ++ [name] := by
  have hanchor : (path.child name).isAbsolute = path.isAbsolute := rfl
  rw [way, way, hanchor]
  split
  · rfl
  · exact (List.append_assoc _ _ _).symm

theorem locate_eq (tree : FileTree) (current : Location) (path : Path) :
    tree.locate current path =
      if path.holdsNull then .error .nullCharacter else tree.walk [] (way current path) := rfl

theorem walk_of_locate (h : tree.locate current path = .ok place) :
    path.holdsNull = false ∧ tree.walk [] (way current path) = .ok place := by
  rw [locate_eq] at h
  split at h
  · cases h
  · rename_i hnull
    exact ⟨by simpa using hnull, h⟩

theorem KeepsDirectories.locate (h : KeepsDirectories before after)
    (hlocate : before.locate current path = .ok place) :
    after.locate current path = .ok place := by
  obtain ⟨hnull, hwalk⟩ := walk_of_locate hlocate
  rw [locate_eq, hnull]
  exact h.walk hwalk

theorem locate_insert (hnew : tree.get? location ≠ some .directory) (entry : Entry)
    (h : tree.locate current path = .ok place) :
    (tree.insert location entry).locate current path = .ok place :=
  (keepsDirectories_insert (.inr hnew)).locate h

/-- A name that leads down, as names of files and directories do. -/
structure Plain (name : String) : Prop where
  down : name ≠ ".."
  noNull : name.toList.contains '\x00' = false

theorem locate_child (hlocate : tree.locate current path = .ok place)
    (hdirectory : tree.get? place = some .directory) (hname : Plain name) :
    tree.locate current (path.child name) = .ok (place ++ [name]) := by
  obtain ⟨hnull, hwalk⟩ := walk_of_locate hlocate
  rw [locate_eq, Path.holdsNull_child, hnull, hname.noNull, way_child, walk_append_of_ok hwalk]
  show tree.walk place [name] = _
  rw [walk, hdirectory]
  show Except.ok (if name = ".." then _ else _) = _
  rw [if_neg hname.down]

theorem locate_child_of_missing (hmissing : tree.find current path = .error .missing)
    (hname : Plain name) : tree.locate current (path.child name) = .error .missing := by
  rw [find] at hmissing
  cases hlocate : tree.locate current path with
  | error cause =>
    rw [hlocate] at hmissing
    cases hmissing
    rw [locate_eq] at hlocate ⊢
    rw [Path.holdsNull_child, hname.noNull, Bool.or_false, way_child]
    split at hlocate
    · cases hlocate
    · rename_i hnull
      rw [if_neg hnull]
      exact walk_append_of_error hlocate _
  | ok place =>
    rw [hlocate] at hmissing
    obtain ⟨hnull, hwalk⟩ := walk_of_locate hlocate
    rw [locate_eq, Path.holdsNull_child, hnull, hname.noNull, way_child, walk_append_of_ok hwalk]
    show tree.walk place [name] = _
    rw [walk]
    cases hentry : tree.get? place with
    | none => rfl
    | some entry => simp only [hentry, reduceCtorEq] at hmissing

/-! ## Files -/

theorem write_ofPath (hlocate : tree.locate current path = .ok location)
    (hfile : tree.get? location ≠ some .directory) (content : Bytes) :
    tree.write current path content = .ok (tree.insert location (.file content)) := by
  have hlocate' : tree.locate current (WrittenPath.ofPath path).path = .ok location := hlocate
  have hending : (WrittenPath.ofPath path).ending = .name := rfl
  rw [write, hlocate']
  cases hentry : tree.get? location with
  | none => simp only [hentry, hending]
  | some entry =>
    cases entry with
    | directory => exact absurd hentry hfile
    | file old => simp only [hentry, hending]
    | config config => simp only [hentry, hending]

theorem read_ofPath (hlocate : tree.locate current path = .ok location) {content : Bytes}
    (hfile : tree.get? location = some (.file content)) :
    tree.read current path = .ok content := by
  have hfind : tree.find current (WrittenPath.ofPath path).path = .ok (.file content) := by
    show tree.find current path = _
    rw [find, hlocate]
    simp only [hfile]
  rw [read, hfind]
  rfl

theorem read_ofPath_missing (hlocate : tree.locate current path = .ok location)
    (hfile : tree.get? location = none) :
    tree.read current path = .error { cause := .missing, path := path.toString } := by
  have hfind : tree.find current (WrittenPath.ofPath path).path = .error .missing := by
    show tree.find current path = _
    rw [find, hlocate]
    simp only [hfile]
  rw [read, hfind]
  rfl

/-! ## Directories -/

theorem makeDirectory_of_directory (hlocate : tree.locate current path = .ok place)
    (hdirectory : tree.get? place = some .directory) :
    tree.makeDirectory current path = .ok tree := by
  rw [makeDirectory, hlocate]
  simp only [hdirectory]

theorem makeDirectory_of_none (hlocate : tree.locate current path = .ok place)
    (hnew : tree.get? place = none) :
    tree.makeDirectory current path = .ok (tree.insert place .directory) := by
  rw [makeDirectory, hlocate]
  simp only [hnew]

theorem makeDirectory_of_error {cause : SystemError.Cause}
    (hlocate : tree.locate current path = .error cause) :
    tree.makeDirectory current path = .error { cause := cause, path := path.toString } := by
  rw [makeDirectory, hlocate]

/-- Parts further down play no role for a directory on the way. -/
theorem makeDirectoriesTo_child {n : Nat} (h : n ≤ path.parts.length) :
    makeDirectoriesTo current (path.child name) n tree = makeDirectoriesTo current path n tree := by
  induction n generalizing tree with
  | zero => rfl
  | succ n ih =>
    have htarget : (path.child name).parts.take (n + 1) = path.parts.take (n + 1) :=
      List.take_append_of_le_length h
    simp only [makeDirectoriesTo, htarget, ih (Nat.le_of_succ_le h)]
    rfl

theorem makeDirectories_of_made {made : FileTree} (h : tree.makeDirectory current path = .ok made) :
    tree.makeDirectories current path = (made, .ok ()) := by
  rw [makeDirectories]
  cases hlength : path.parts.length with
  | zero =>
    have hpath : { path with parts := [] } = path := by
      rw [← List.length_eq_zero_iff.mp hlength]
    rw [makeDirectoriesTo, hpath, h]
  | succ n =>
    have hpath : { path with parts := path.parts.take (n + 1) } = path := by
      rw [← hlength, List.take_length]
    rw [makeDirectoriesTo, hpath, h]

/-- A directory whose surroundings are missing is made after them. -/
theorem makeDirectories_child_of_missing {made made' : FileTree}
    (hmissing : tree.locate current (path.child name) = .error .missing)
    (habove : tree.makeDirectories current path = (made, .ok ()))
    (hmade : made.makeDirectory current (path.child name) = .ok made') :
    tree.makeDirectories current (path.child name) = (made', .ok ()) := by
  have hlength : (path.child name).parts.length = path.parts.length + 1 := by
    simp [Path.child]
  have hpath : { path.child name with
      parts := (path.child name).parts.take (path.parts.length + 1) } = path.child name := by
    rw [← hlength, List.take_length]
  rw [makeDirectories, hlength, makeDirectoriesTo, hpath, makeDirectory_of_error hmissing,
    makeDirectoriesTo_child (Nat.le_refl _)]
  rw [makeDirectories] at habove
  simp only [habove, hmade, if_true]

/-- The path leads to a directory that holds nothing, at any depth. -/
structure EmptyAt (tree : FileTree) (current : Location) (path : Path) (place : Location) :
    Prop where
  located : tree.locate current path = .ok place
  directory : tree.get? place = some .directory
  empty : ∀ rest, rest ≠ [] → tree.get? (place ++ rest) = none

namespace EmptyAt

theorem makeDirectory_child (h : tree.EmptyAt current path place) (hname : Plain name) :
    ∃ made, tree.makeDirectory current (path.child name) = .ok made ∧
      made.EmptyAt current (path.child name) (place ++ [name]) := by
  have hlocate := locate_child h.located h.directory hname
  have hnew : tree.get? (place ++ [name]) = none := h.empty [name] (by simp)
  have hnotDirectory : tree.get? (place ++ [name]) ≠ some .directory := by simp [hnew]
  refine ⟨_, makeDirectory_of_none hlocate hnew, ?_, ?_, ?_⟩
  · exact locate_insert hnotDirectory _ hlocate
  · exact get?_insert_self (by simp) _
  · intro rest hrest
    have hne : place ++ [name] ++ rest ≠ place ++ [name] := by simpa using hrest
    rw [get?_insert_of_ne hne, List.append_assoc]
    exact h.empty _ (by simp)

theorem find_below (h : tree.EmptyAt current path place) {names : List String}
    (hne : names ≠ []) (hnames : ∀ name ∈ names, Plain name) :
    tree.find current (names.foldl Path.child path) = .error .missing := by
  induction names using List.reverseRecOn with
  | nil => exact absurd rfl hne
  | append_singleton names name ih =>
    have hname : Plain name := hnames name (by simp)
    have hstart : ∀ other ∈ names, Plain other := fun other hother =>
      hnames other (List.mem_append_left _ hother)
    rw [List.foldl_append, List.foldl_cons, List.foldl_nil, find]
    by_cases hnil : names = []
    · subst hnil
      rw [List.foldl_nil, locate_child h.located h.directory hname]
      simp only [h.empty [name] (by simp)]
    · rw [locate_child_of_missing (ih hnil hstart) hname]

/-- The induction is on the names from the last one back, as the directories are asked for. -/
theorem makeDirectories (h : tree.EmptyAt current path place) {names : List String}
    (hnames : ∀ name ∈ names, Plain name) :
    ∃ made, tree.makeDirectories current (names.foldl Path.child path) = (made, .ok ()) ∧
      made.EmptyAt current (names.foldl Path.child path) (place ++ names) := by
  induction names using List.reverseRecOn with
  | nil =>
    refine ⟨tree, makeDirectories_of_made (makeDirectory_of_directory h.located h.directory), ?_⟩
    rw [List.append_nil]
    exact h
  | append_singleton names name ih =>
    have hname : Plain name := hnames name (by simp)
    have hstart : ∀ other ∈ names, Plain other := fun other hother =>
      hnames other (List.mem_append_left _ hother)
    rw [List.foldl_append, List.foldl_cons, List.foldl_nil, ← List.append_assoc]
    by_cases hnil : names = []
    · subst hnil
      obtain ⟨made, hmade, hempty⟩ := h.makeDirectory_child hname
      rw [List.append_nil]
      exact ⟨made, makeDirectories_of_made hmade, hempty⟩
    · obtain ⟨above, habove, hempty⟩ := ih hstart
      obtain ⟨made, hmade, hempty'⟩ := hempty.makeDirectory_child hname
      have hmissing := locate_child_of_missing (h.find_below hnil hstart) hname
      exact ⟨made, makeDirectories_child_of_missing hmissing habove hmade, hempty'⟩

end EmptyAt
end FileTree
end CiPipeline
