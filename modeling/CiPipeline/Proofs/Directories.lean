import CiPipeline.Proofs.FileTree
import CiPipeline.Proofs.PathResolution

/-!
# CiPipeline.Proofs.Directories

Making a directory with all that is missing above it: what appears, and when it can be done.

* `walk_eq_cancelOnto` — a way that can be gone leads where its parts say.
* `NewDirectory`, `Grown` — new directories at some of the locations asked for, and no other change.
* `makeDirectoriesTo_keeps` — what every single directory keeps is kept by all that are made.
* `makeDirectories_grown` — whatever the outcome, only directories on the path appear.
* `Open`            — nothing but directories stands on the path.
* `makeDirectories_ok_iff` — an open path is what it takes to succeed.
* `makeDirectories_leads`  — after a success the path leads to a directory.
-/

namespace CiPipeline
namespace FileTree

variable {tree made above before middle after : FileTree} {current place location : Location}
  {path : Path} {name : String} {new : Location → Prop}

/-! ## Ways -/

theorem cancelOnto_next (location : Location) (part : String) (rest : List String) :
    Path.cancelOnto (next location part).reverse rest =
      Path.cancelOnto location.reverse (part :: rest) := by
  rw [Path.cancelOnto_cons, next]
  split
  · rw [List.tail_reverse]
  · rw [List.reverse_append]
    rfl

theorem walk_eq_cancelOnto {way : List String} {start goal : Location}
    (h : tree.walk start way = .ok goal) : goal = Path.cancelOnto start.reverse way := by
  induction way generalizing start with
  | nil =>
    cases h
    rw [Path.cancelOnto, List.reverse_reverse]
  | cons part rest ih =>
    rw [walk_cons_of_directory (directory_of_walk_cons h)] at h
    rw [ih h, cancelOnto_next]

/-- The start of a way that can be gone can be gone. -/
theorem exists_walk_of_append {way more : List String} {start goal : Location}
    (h : tree.walk start (way ++ more) = .ok goal) :
    ∃ middle, tree.walk start way = .ok middle ∧ tree.walk middle more = .ok goal := by
  cases hway : tree.walk start way with
  | error cause =>
    rw [walk_append_of_error hway] at h
    cases h
  | ok middle =>
    rw [walk_append_of_ok hway] at h
    exact ⟨middle, rfl, h⟩

/-- A way to a directory starts in a directory. -/
theorem directory_of_walk {way : List String} {start goal : Location}
    (h : tree.walk start way = .ok goal) (hgoal : tree.get? goal = some .directory) :
    tree.get? start = some .directory := by
  cases way with
  | nil =>
    cases h
    exact hgoal
  | cons part rest => exact directory_of_walk_cons h

/-- Where nothing but directories stands, a way can only end because something is missing. -/
theorem missing_of_walk {way : List String} {start : Location} {cause : SystemError.Cause}
    (hfree : ∀ n entry, tree.get? (Path.cancelOnto start.reverse (way.take n)) = some entry →
      entry = .directory)
    (h : tree.walk start way = .error cause) : cause = .missing := by
  induction way generalizing start with
  | nil => cases h
  | cons part rest ih =>
    have hstart : Path.cancelOnto start.reverse ((part :: rest).take 0) = start :=
      List.reverse_reverse start
    cases hentry : tree.get? start with
    | none =>
      rw [walk, hentry] at h
      cases h
      rfl
    | some entry =>
      obtain rfl : entry = .directory := hfree 0 entry (by rw [hstart, hentry])
      rw [walk_cons_of_directory hentry] at h
      refine ih (fun n entry hn => hfree (n + 1) entry ?_) h
      rw [List.take_succ_cons, ← cancelOnto_next]
      exact hn

theorem way_eq (current : Location) (path : Path) :
    way current path = path.origin current ++ path.parts := by
  rw [way, Path.origin]
  split <;> rfl

/-- Looking a path up changes nothing about where it leads. -/
theorem resolve_of_locate (h : tree.locate current path = .ok place) :
    place = path.resolve current := by
  have hwalk := (walk_of_locate h).2
  rw [way_eq] at hwalk
  rw [Path.resolve_eq]
  exact walk_eq_cancelOnto hwalk

/-! ## New directories -/

/-- A directory where nothing was before. -/
def NewDirectory (new : Location → Prop) (before after : FileTree) (location : Location) : Prop :=
  new location ∧ before.get? location = none ∧ after.get? location = some .directory

def Grown (new : Location → Prop) (before after : FileTree) : Prop :=
  ∀ location, after.get? location = before.get? location ∨ NewDirectory new before after location

namespace Grown

theorem refl (new : Location → Prop) (tree : FileTree) : Grown new tree tree :=
  fun _ => .inl rfl

theorem trans (h : Grown new before middle) (h' : Grown new middle after) :
    Grown new before after := by
  intro location
  rcases h location with hsame | ⟨hnew, hnone, hdirectory⟩
  · rcases h' location with hsame' | ⟨hnew, hnone, hdirectory⟩
    · exact .inl (hsame'.trans hsame)
    · exact .inr ⟨hnew, hsame.symm.trans hnone, hdirectory⟩
  · rcases h' location with hsame' | ⟨_, hnone', _⟩
    · exact .inr ⟨hnew, hnone, hsame'.trans hdirectory⟩
    · rw [hdirectory] at hnone'
      cases hnone'

theorem insert (h : new location) (hnone : tree.get? location = none) :
    Grown new tree (tree.insert location .directory) := by
  have hne : location ≠ [] := by
    rintro rfl
    cases hnone
  intro other
  by_cases hother : other = location
  · subst hother
    exact .inr ⟨h, hnone, get?_insert_self hne _⟩
  · exact .inl (get?_insert_of_ne hother _)

/-- Nothing that was there is gone, or changed. -/
theorem kept (h : Grown new before after) {entry : Entry}
    (hentry : before.get? location = some entry) : after.get? location = some entry := by
  rcases h location with hsame | ⟨_, hnone, _⟩
  · rw [hsame, hentry]
  · rw [hentry] at hnone
    cases hnone

/-- What is there and no directory was there before. -/
theorem found (h : Grown new before after) {entry : Entry}
    (hentry : after.get? location = some entry) (hne : entry ≠ .directory) :
    before.get? location = some entry := by
  rcases h location with hsame | ⟨_, _, hdirectory⟩
  · rw [← hsame, hentry]
  · rw [hentry] at hdirectory
    exact absurd (Option.some.inj hdirectory) hne

theorem keepsDirectories (h : Grown new before after) : KeepsDirectories before after :=
  fun _ => h.kept

end Grown

/-! ## One directory -/

theorem makeDirectory_grown (h : tree.makeDirectory current path = .ok made)
    (hnew : new (path.resolve current)) : Grown new tree made := by
  rw [makeDirectory] at h
  cases hlocate : tree.locate current path with
  | error cause => rw [hlocate] at h; cases h
  | ok place =>
    rw [← resolve_of_locate hlocate] at hnew
    rw [hlocate] at h
    cases hentry : tree.get? place with
    | none =>
      simp only [hentry] at h
      cases h
      exact .insert hnew hentry
    | some entry =>
      cases entry with
      | directory =>
        simp only [hentry] at h
        cases h
        exact .refl new tree
      | file content => simp only [hentry, reduceCtorEq] at h
      | config config => simp only [hentry, reduceCtorEq] at h

/-- The path leads to a directory. -/
def Leads (tree : FileTree) (current : Location) (path : Path) : Prop :=
  ∃ place, tree.locate current path = .ok place ∧ tree.get? place = some .directory

theorem KeepsDirectories.leads (h : KeepsDirectories before after)
    (hleads : before.Leads current path) : after.Leads current path := by
  obtain ⟨place, hlocate, hdirectory⟩ := hleads
  exact ⟨place, h.locate hlocate, h place hdirectory⟩

/-- A file written elsewhere leaves the way as it is. -/
theorem Leads.insert (h : tree.Leads current path) (hnew : tree.get? location ≠ some .directory)
    (entry : Entry) : (tree.insert location entry).Leads current path :=
  (keepsDirectories_insert (.inr hnew)).leads h

theorem Leads.locate_child (h : tree.Leads current path) (hname : Plain name) :
    tree.locate current (path.child name) = .ok (path.resolve current ++ [name]) := by
  obtain ⟨place, hlocate, hdirectory⟩ := h
  rw [← resolve_of_locate hlocate]
  exact FileTree.locate_child hlocate hdirectory hname

theorem locate_of_makeDirectory (h : tree.makeDirectory current path = .ok made) :
    ∃ place, tree.locate current path = .ok place := by
  cases hlocate : tree.locate current path with
  | error cause => rw [makeDirectory_of_error hlocate] at h; cases h
  | ok place => exact ⟨place, rfl⟩

theorem makeDirectory_leads (h : tree.makeDirectory current path = .ok made) :
    made.Leads current path := by
  obtain ⟨place, hlocate⟩ := locate_of_makeDirectory h
  have hgrown : Grown (fun _ => True) tree made := makeDirectory_grown h trivial
  refine ⟨place, hgrown.keepsDirectories.locate hlocate, ?_⟩
  cases hentry : tree.get? place with
  | none =>
    rw [makeDirectory_of_none hlocate hentry] at h
    cases h
    refine get?_insert_self ?_ _
    rintro rfl
    cases hentry
  | some entry =>
    cases entry with
    | directory => exact hgrown.kept hentry
    | file content => simp only [makeDirectory, hlocate, hentry, reduceCtorEq] at h
    | config config => simp only [makeDirectory, hlocate, hentry, reduceCtorEq] at h

/-! ## All that is missing -/

theorem makeDirectoriesTo_of_made {n : Nat}
    (h : tree.makeDirectory current (path.upTo (n + 1)) = .ok made) :
    makeDirectoriesTo current path (n + 1) tree = (made, .ok ()) := by
  rw [Path.upTo] at h
  rw [makeDirectoriesTo, h]

theorem makeDirectoriesTo_of_above {n : Nat}
    (hmissing : tree.locate current (path.upTo (n + 1)) = .error .missing)
    (habove : makeDirectoriesTo current path n tree = (above, .ok ()))
    (hmade : above.makeDirectory current (path.upTo (n + 1)) = .ok made) :
    makeDirectoriesTo current path (n + 1) tree = (made, .ok ()) := by
  have hrefused := makeDirectory_of_error hmissing
  rw [Path.upTo] at hrefused hmade
  rw [makeDirectoriesTo]
  simp only [hrefused, if_true, habove, hmade]

/-- The three ways in which a directory with its surroundings is made, or is not. -/
theorem makeDirectoriesTo_cases {n : Nat} {outcome : Except SystemError Unit}
    (h : makeDirectoriesTo current path (n + 1) tree = (after, outcome)) :
    (tree.makeDirectory current (path.upTo (n + 1)) = .ok after ∧ outcome = .ok ()) ∨
    (∃ above, makeDirectoriesTo current path n tree = (above, .ok ()) ∧
      above.makeDirectory current (path.upTo (n + 1)) = .ok after ∧ outcome = .ok ()) ∨
    ((after = tree ∨ ∃ result, makeDirectoriesTo current path n tree = (after, result)) ∧
      ∃ e, outcome = .error e) := by
  have htarget : { path with parts := path.parts.take (n + 1) } = path.upTo (n + 1) := rfl
  simp only [makeDirectoriesTo, htarget] at h
  cases hfirst : tree.makeDirectory current (path.upTo (n + 1)) with
  | ok made =>
    simp only [hfirst, Prod.mk.injEq] at h
    exact .inl ⟨congrArg Except.ok h.1, h.2.symm⟩
  | error e =>
    simp only [hfirst] at h
    split at h
    · rcases hmore : makeDirectoriesTo current path n tree with ⟨above, result⟩
      cases result with
      | error e' =>
        simp only [hmore, Prod.mk.injEq] at h
        exact .inr (.inr ⟨.inr ⟨_, Prod.ext h.1 rfl⟩, _, h.2.symm⟩)
      | ok _ =>
        simp only [hmore] at h
        cases hsecond : above.makeDirectory current (path.upTo (n + 1)) with
        | ok made =>
          simp only [hsecond, Prod.mk.injEq] at h
          exact .inr (.inl ⟨above, rfl, hsecond.trans (congrArg Except.ok h.1), h.2.symm⟩)
        | error e' =>
          simp only [hsecond, Prod.mk.injEq] at h
          exact .inr (.inr ⟨.inr ⟨_, Prod.ext h.1 rfl⟩, _, h.2.symm⟩)
    · rw [Prod.mk.injEq] at h
      exact .inr (.inr ⟨.inl h.1.symm, _, h.2.symm⟩)

theorem makeDirectoriesTo_zero {outcome : Except SystemError Unit}
    (h : makeDirectoriesTo current path 0 tree = (after, outcome)) :
    (tree.makeDirectory current (path.upTo 0) = .ok after ∧ outcome = .ok ()) ∨
      (after = tree ∧ ∃ e, outcome = .error e) := by
  have htarget : { path with parts := [] } = path.upTo 0 := rfl
  rw [makeDirectoriesTo, htarget] at h
  cases hmake : tree.makeDirectory current (path.upTo 0) with
  | ok made =>
    simp only [hmake, Prod.mk.injEq] at h
    exact .inl ⟨congrArg Except.ok h.1, h.2.symm⟩
  | error e =>
    simp only [hmake, Prod.mk.injEq] at h
    exact .inr ⟨h.1.symm, e, h.2.symm⟩

/-- What every single directory keeps is kept by all that are made, whatever the outcome. -/
theorem makeDirectoriesTo_keeps {P : FileTree → Prop}
    (hkeeps : ∀ n before after, P before →
      before.makeDirectory current (path.upTo n) = .ok after → P after)
    {n : Nat} {outcome : Except SystemError Unit} (hstart : P tree)
    (h : makeDirectoriesTo current path n tree = (after, outcome)) : P after := by
  induction n generalizing after outcome with
  | zero =>
    rcases makeDirectoriesTo_zero h with ⟨hmade, -⟩ | ⟨rfl, -⟩
    · exact hkeeps 0 tree after hstart hmade
    · exact hstart
  | succ n ih =>
    rcases makeDirectoriesTo_cases h with ⟨hmade, -⟩ | ⟨above, habove, hmade, -⟩ | ⟨hleft, -⟩
    · exact hkeeps (n + 1) tree after hstart hmade
    · exact hkeeps (n + 1) above after (ih habove) hmade
    · rcases hleft with rfl | ⟨result, habove⟩
      · exact hstart
      · exact ih habove

theorem makeDirectoriesTo_grown {n : Nat} {outcome : Except SystemError Unit}
    (h : makeDirectoriesTo current path n tree = (after, outcome)) :
    Grown (path.Passes current) tree after := by
  refine makeDirectoriesTo_keeps (fun n before after hgrown hmade => ?_) (.refl _ tree) h
  exact hgrown.trans (makeDirectory_grown hmade ⟨n, rfl⟩)

theorem makeDirectoriesTo_leads {n : Nat}
    (h : makeDirectoriesTo current path n tree = (made, .ok ())) :
    made.Leads current (path.upTo n) := by
  cases n with
  | zero =>
    rcases makeDirectoriesTo_zero h with ⟨hmade, -⟩ | ⟨-, e, he⟩
    · exact makeDirectory_leads hmade
    · cases he
  | succ n =>
    rcases makeDirectoriesTo_cases h with ⟨hmade, -⟩ | ⟨above, -, hmade, -⟩ | ⟨-, e, he⟩
    · exact makeDirectory_leads hmade
    · exact makeDirectory_leads hmade
    · cases he

/-- Whatever the outcome, nothing but directories on the path appears. -/
theorem makeDirectories_grown (tree : FileTree) (current : Location) (path : Path) :
    Grown (path.Passes current) tree (tree.makeDirectories current path).1 :=
  makeDirectoriesTo_grown rfl

theorem makeDirectories_leads (h : tree.makeDirectories current path = (made, .ok ())) :
    made.Leads current path := by
  have hleads := makeDirectoriesTo_leads h
  rw [Path.upTo_length] at hleads
  exact hleads

/-! ## Open paths -/

/-- Nothing but directories stands on the path: the directory at its end exists or can be made. A
path that is not absolute starts from a place that can be reached. -/
structure Open (tree : FileTree) (current : Location) (path : Path) : Prop where
  noNull : path.holdsNull = false
  start : ∃ place, tree.walk [] (path.origin current) = .ok place
  free : ∀ location entry, path.Passes current location → tree.get? location = some entry →
    entry = .directory

theorem holdsNull_upTo (h : path.holdsNull = false) (n : Nat) :
    (path.upTo n).holdsNull = false := by
  rw [Path.holdsNull, List.any_eq_false] at h ⊢
  exact fun part hpart => h part (List.mem_of_mem_take hpart)

theorem way_upTo (current : Location) (path : Path) (n : Nat) :
    way current (path.upTo n) = path.origin current ++ path.parts.take n := by
  rw [way_eq]
  rfl

/-- Where a path leads over, seen from the place it starts from. -/
theorem resolve_upTo (hstart : tree.walk [] (path.origin current) = .ok place) (n : Nat) :
    (path.upTo n).resolve current = Path.cancelOnto place.reverse (path.parts.take n) := by
  rw [Path.resolve_eq, Path.origin_upTo, Path.cancel_append, walk_eq_cancelOnto hstart]
  rfl

namespace Open

theorem locate_eq_walk (h : tree.Open current path)
    (hstart : tree.walk [] (path.origin current) = .ok place) (n : Nat) :
    tree.locate current (path.upTo n) = tree.walk place (path.parts.take n) := by
  rw [locate_eq, holdsNull_upTo h.noNull, way_upTo, walk_append_of_ok hstart]
  rfl

theorem missing_of_locate (h : tree.Open current path) {n : Nat} {cause : SystemError.Cause}
    (hlocate : tree.locate current (path.upTo n) = .error cause) : cause = .missing := by
  obtain ⟨place, hstart⟩ := h.start
  rw [h.locate_eq_walk hstart] at hlocate
  refine missing_of_walk (fun m entry hentry => ?_) hlocate
  rw [List.take_take] at hentry
  exact h.free _ entry ⟨_, (resolve_upTo hstart _).symm⟩ hentry

theorem exists_makeDirectory (h : tree.Open current path) {n : Nat}
    (hlocate : tree.locate current (path.upTo n) = .ok place) :
    ∃ made, tree.makeDirectory current (path.upTo n) = .ok made := by
  cases hentry : tree.get? place with
  | none => exact ⟨_, makeDirectory_of_none hlocate hentry⟩
  | some entry =>
    have hpasses : path.Passes current place := ⟨n, resolve_of_locate hlocate⟩
    obtain rfl : entry = .directory := h.free place entry hpasses hentry
    exact ⟨tree, makeDirectory_of_directory hlocate hentry⟩

theorem grown (h : tree.Open current path) (hgrown : Grown new tree after) :
    after.Open current path where
  noNull := h.noNull
  start := by
    obtain ⟨place, hstart⟩ := h.start
    exact ⟨place, hgrown.keepsDirectories.walk hstart⟩
  free := by
    intro location entry hpasses hentry
    by_contra hne
    exact hne (h.free location entry hpasses (hgrown.found hentry hne))

/-- From a directory on the way, the next one can at least be looked up. -/
theorem exists_locate_succ (h : tree.Open current path) {n : Nat}
    (hleads : tree.Leads current (path.upTo n)) :
    ∃ place, tree.locate current (path.upTo (n + 1)) = .ok place := by
  obtain ⟨start, hstart⟩ := h.start
  obtain ⟨place, hlocate, hdirectory⟩ := hleads
  rw [h.locate_eq_walk hstart] at hlocate ⊢
  rw [List.take_add_one, walk_append_of_ok hlocate]
  cases path.parts[n]? with
  | none => exact ⟨place, rfl⟩
  | some part => exact ⟨_, walk_cons_of_directory hdirectory part []⟩

theorem exists_makeDirectoriesTo (h : tree.Open current path) (n : Nat) :
    ∃ made, makeDirectoriesTo current path n tree = (made, .ok ()) := by
  induction n with
  | zero =>
    obtain ⟨place, hstart⟩ := h.start
    have hlocate : tree.locate current (path.upTo 0) = .ok place := h.locate_eq_walk hstart 0
    obtain ⟨made, hmade⟩ := h.exists_makeDirectory hlocate
    refine ⟨made, ?_⟩
    rw [Path.upTo, List.take_zero] at hmade
    rw [makeDirectoriesTo, hmade]
  | succ n ih =>
    cases hlocate : tree.locate current (path.upTo (n + 1)) with
    | ok place =>
      obtain ⟨made, hmade⟩ := h.exists_makeDirectory hlocate
      exact ⟨made, makeDirectoriesTo_of_made hmade⟩
    | error cause =>
      obtain rfl := h.missing_of_locate hlocate
      obtain ⟨above, habove⟩ := ih
      have hopen := h.grown (makeDirectoriesTo_grown habove)
      obtain ⟨place, hplace⟩ := hopen.exists_locate_succ (makeDirectoriesTo_leads habove)
      obtain ⟨made, hmade⟩ := hopen.exists_makeDirectory hplace
      exact ⟨made, makeDirectoriesTo_of_above hlocate habove hmade⟩

end Open

/-- A success says that the place a path starts from could be reached. -/
theorem exists_start_of_makeDirectory {n : Nat}
    (h : tree.makeDirectory current (path.upTo n) = .ok made) :
    ∃ start, tree.walk [] (path.origin current) = .ok start := by
  obtain ⟨place, hlocate⟩ := locate_of_makeDirectory h
  have hwalk := (walk_of_locate hlocate).2
  rw [way_upTo] at hwalk
  obtain ⟨start, hstart, -⟩ := exists_walk_of_append hwalk
  exact ⟨start, hstart⟩

theorem exists_start_of_makeDirectoriesTo {n : Nat}
    (h : makeDirectoriesTo current path n tree = (made, .ok ())) :
    ∃ start, tree.walk [] (path.origin current) = .ok start := by
  induction n generalizing made with
  | zero =>
    rcases makeDirectoriesTo_zero h with ⟨hmade, -⟩ | ⟨-, e, he⟩
    · exact exists_start_of_makeDirectory hmade
    · cases he
  | succ n ih =>
    rcases makeDirectoriesTo_cases h with ⟨hmade, -⟩ | ⟨above, habove, -, -⟩ | ⟨-, e, he⟩
    · exact exists_start_of_makeDirectory hmade
    · exact ih habove
    · cases he

/-- A path that leads to a directory leads over nothing else. -/
theorem Leads.directory_of_passes (h : tree.Leads current path)
    (hpasses : path.Passes current location) : tree.get? location = some .directory := by
  obtain ⟨n, rfl⟩ := hpasses
  obtain ⟨place, hlocate, hdirectory⟩ := h
  have hwalk := (walk_of_locate hlocate).2
  rw [way_eq, ← List.take_append_drop n path.parts, ← List.append_assoc] at hwalk
  obtain ⟨middle, hfirst, hrest⟩ := exists_walk_of_append hwalk
  have hmiddle : (path.upTo n).resolve current = middle := by
    rw [Path.resolve_eq, walk_eq_cancelOnto hfirst]
    rfl
  rw [hmiddle]
  exact directory_of_walk hrest hdirectory

/-- The directories of a path can be made exactly when nothing else stands in their way. -/
theorem makeDirectories_ok_iff :
    (tree.makeDirectories current path).2 = .ok () ↔ tree.Open current path := by
  constructor
  · intro h
    obtain ⟨made, hmade⟩ : ∃ made, tree.makeDirectories current path = (made, .ok ()) :=
      ⟨_, Prod.ext rfl h⟩
    have hleads := makeDirectories_leads hmade
    have hgrown := makeDirectories_grown tree current path
    rw [hmade] at hgrown
    refine ⟨?_, exists_start_of_makeDirectoriesTo hmade, ?_⟩
    · obtain ⟨place, hlocate, -⟩ := hleads
      exact (walk_of_locate hlocate).1
    · intro location entry hpasses hentry
      have hfound := hgrown.kept hentry
      rw [hleads.directory_of_passes hpasses] at hfound
      exact (Option.some.inj hfound).symm
  · intro h
    obtain ⟨made, hmade⟩ := h.exists_makeDirectoriesTo path.parts.length
    rw [makeDirectories, hmade]

end FileTree
end CiPipeline
