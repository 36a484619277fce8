import CiPipeline.Proofs.Relocation

/-!
# CiPipeline.Proofs.TargetPath

Target directories as they are seen from the project root.

* `Path.followed`      — where the text of a path leads from a location, name by name.
* `Path.standing_eq`   — the location of a base is where its text leads.
* `Path.cancelOnto_relative` — the way between two locations leads from the one to the other.
* `Path.ShortestWay`   — such a way, which goes up no further than it has to.
* `Pipeline.normaliseTarget_leads` — an absolute target becomes the shortest way to it from the
                         root, a relative one is looked at alone, and once is enough for both.
-/

namespace CiPipeline
namespace Path

/-! ## Following a text -/

/-- Where one name leads: an empty one and `.` nowhere else, and `..` back. -/
def followName (location : Location) (name : Text) : Location :=
  if name = [] ∨ name = ['.'] then location
  else if name = ['.', '.'] then location.dropLast
  else location ++ [String.ofList name]

def followed (start : Location) (s : String) : Location :=
  (Text.pieces '/' s).foldl followName start

theorem ofList_eq_back_iff {name : Text} : String.ofList name = ".." ↔ name = ['.', '.'] := by
  constructor
  · intro h
    rw [← String.toList_ofList (l := name), h]
    rfl
  · rintro rfl
    rfl

theorem foldl_followName (names : List Text) (start : Location) :
    names.foldl followName start = cancelOnto start.reverse
      ((names.filter fun name => name != [] && name != ['.']).map String.ofList) := by
  induction names generalizing start with
  | nil => exact (List.reverse_reverse start).symm
  | cons name names ih =>
    rw [List.foldl_cons, ih, followName]
    by_cases hnone : name = [] ∨ name = ['.']
    · have hdrop : (name != [] && name != ['.']) = false := by
        rcases hnone with rfl | rfl <;> rfl
      rw [if_pos hnone, List.filter_cons, hdrop]
      rfl
    · have hkeep : (name != [] && name != ['.']) = true := by simpa using hnone
      rw [if_neg hnone, List.filter_cons, if_pos hkeep, List.map_cons, cancelOnto_cons]
      by_cases hback : name = ['.', '.']
      · rw [if_pos hback, if_pos (ofList_eq_back_iff.mpr hback), List.tail_reverse]
      · rw [if_neg hback, if_neg fun h => hback (ofList_eq_back_iff.mp h), List.reverse_append]
        rfl

theorem followed_eq (start : Location) (s : String) :
    followed start s = cancelOnto start.reverse (parse s).parts :=
  foldl_followName _ start

/-- A path that is not absolute, written behind the current directory. -/
def completed (current s : String) : String :=
  if s.toList.head? = some '/' then s else current ++ "/" ++ s

/-- The location that a path names in a current directory. -/
def standing (current s : String) : Location := (parse s).resolve ((parse current).resolve [])

theorem standing_eq (current s : String) :
    standing current s = followed [] (completed current s) := by
  rw [followed_eq, completed, standing]
  by_cases habsolute : s.toList.head? = some '/'
  · rw [if_pos habsolute, resolve, if_pos ((isAbsolute_iff s).mpr habsolute)]
    rfl
  · have hrelative : ¬ (parse s).isAbsolute = true := fun h => habsolute ((isAbsolute_iff s).mp h)
    have hcurrent := down_resolve (parse current) []
    rw [resolve_nil] at hcurrent
    have hagain : cancel (cancel (parse current).parts) = cancel (parse current).parts :=
      cancel_append_of_down [] hcurrent
    rw [if_neg habsolute, resolve, if_neg hrelative, resolve_nil, cancel_append, hagain,
      parts_below, ← cancel_append]
    rfl

/-! ## The way between two locations -/

theorem cancelOnto_relative (start : Location) {goal : Location} (hgoal : ".." ∉ goal) :
    cancelOnto start.reverse (relative start goal).parts = goal := by
  have hdown : ".." ∉ goal.drop (sharedLength start goal) := fun h =>
    hgoal (List.mem_of_mem_drop h)
  have hback : start.length - (start.length - sharedLength start goal) = sharedLength start goal :=
    Nat.sub_sub_self (sharedLength_le start goal)
  rw [relative, cancelOnto_replicate, cancelOnto_of_down hdown, List.drop_reverse,
    List.reverse_reverse, hback, take_sharedLength, List.take_append_drop]

theorem legible_relative {start goal : Location} (hgoal : ∀ name ∈ goal, Legible name) :
    ∀ part ∈ (relative start goal).parts, Legible part := by
  intro part hpart
  rw [relative, List.mem_append] at hpart
  rcases hpart with hback | hdown
  · rw [List.eq_of_mem_replicate hback]
    exact ⟨by decide, by decide, by decide⟩
  · exact hgoal part (List.mem_of_mem_drop hdown)

theorem legible_resolve (s : String) : ∀ part ∈ (parse s).resolve [], Legible part := by
  intro part hpart
  rw [resolve_nil] at hpart
  rcases mem_of_mem_cancelOnto hpart with hnone | hmem
  · cases hnone
  · exact legible_of_parse hmem

/-- The text leads from one location to another, as a relative path with all its steps back in
front, and no more of them than there are names to be left. -/
structure ShortestWay (start goal : Location) (s : String) : Prop where
  relative : s.toList.head? ≠ some '/'
  arrives : followed start s = goal
  steps : ∃ back down, (parse s).parts = List.replicate back ".." ++ down ∧ ".." ∉ down ∧
    ∀ common, common <+: start → common <+: goal → back + common.length ≤ start.length

theorem shortestWay_relative (start : Location) {goal : Location} (hgoal : ".." ∉ goal)
    (hlegible : ∀ name ∈ goal, Legible name) :
    ShortestWay start goal (relative start goal).toString := by
  have hparse : parse (relative start goal).toString = relative start goal :=
    parse_toString_relative (legible_relative hlegible)
  refine ⟨?_, ?_, ?_⟩
  · rw [Ne, ← isAbsolute_iff, hparse]
    exact Bool.false_ne_true
  · rw [followed_eq, hparse, cancelOnto_relative start hgoal]
  · rw [hparse]
    refine ⟨start.length - sharedLength start goal, goal.drop (sharedLength start goal), rfl,
      fun h => hgoal (List.mem_of_mem_drop h), ?_⟩
    intro common hstart hcommon
    have hshared := le_sharedLength hstart hcommon
    have hlength := sharedLength_le start goal
    omega

end Path

namespace Pipeline

theorem normaliseTarget_absolute {target : String} (h : (Path.parse target).isAbsolute = true)
    (root : Location) :
    normaliseTarget root target =
      (Path.relative root ((Path.parse target).resolve [])).toString := by
  rw [normaliseTarget, if_pos h]

/-- Parts that are written out, without a slash in front. -/
theorem exists_legible_normaliseTarget (root : Location) (target : String) :
    ∃ parts, (∀ part ∈ parts, Path.Legible part) ∧
      normaliseTarget root target = Path.toString ⟨.relative, parts⟩ := by
  cases h : (Path.parse target).isAbsolute with
  | true =>
    exact ⟨_, Path.legible_relative (Path.legible_resolve target), normaliseTarget_absolute h root⟩
  | false =>
    refine ⟨(Path.parse target).parts, fun _ => Path.legible_of_parse, ?_⟩
    have hanchor : (Path.parse target).anchor = .relative := by
      simpa [Path.isAbsolute] using h
    rw [normaliseTarget_relative h, ← hanchor]

theorem normaliseTarget_idempotent (root other : Location) (target : String) :
    normaliseTarget other (normaliseTarget root target) = normaliseTarget root target := by
  obtain ⟨parts, hparts, htext⟩ := exists_legible_normaliseTarget root target
  have hparse := Path.parse_toString_relative hparts
  rw [htext, normaliseTarget_relative (by rw [hparse]; rfl), hparse]

/-- An absolute target becomes the shortest way to it from the base, each of the two normalised name
by name. The base does not matter to a relative target, nor to one that was normalised before. -/
theorem normaliseTarget_leads (current base target : String) :
    (target.toList.head? = some '/' →
      Path.ShortestWay (Path.followed [] (Path.completed current base)) (Path.followed [] target)
        (normaliseTarget (Path.standing current base) target)) ∧
    (target.toList.head? ≠ some '/' →
      ∀ root, normaliseTarget root target = normaliseTarget (Path.standing current base) target) ∧
    ∀ root, normaliseTarget root (normaliseTarget (Path.standing current base) target) =
      normaliseTarget (Path.standing current base) target := by
  refine ⟨?_, ?_, ?_⟩
  · intro habsolute
    have hgoal : Path.followed [] target = (Path.parse target).resolve [] := by
      rw [Path.followed_eq, Path.resolve_nil]
      rfl
    rw [normaliseTarget_absolute ((Path.isAbsolute_iff target).mpr habsolute), hgoal,
      ← Path.standing_eq]
    exact Path.shortestWay_relative _ (Path.down_resolve _ _) (Path.legible_resolve target)
  · intro hrelative root
    have hparse : (Path.parse target).isAbsolute = false :=
      Bool.eq_false_iff.mpr fun h => hrelative ((Path.isAbsolute_iff target).mp h)
    rw [normaliseTarget_relative hparse, normaliseTarget_relative hparse]
  · intro root
    exact normaliseTarget_idempotent _ root target

/-- A base with detours below the current directory, and a target beside it; a relative target keeps
its own detour. -/
theorem normaliseTarget_beside :
    ("//home/dev/x/../other//target/.".toList.head? = some '/' ∧
      Path.ShortestWay ["home", "dev", "repo"] ["home", "dev", "other", "target"]
        "../other/target") ∧
    ("out/../bin".toList.head? ≠ some '/' ∧
      normaliseTarget ["srv"] "out/../bin" =
        normaliseTarget (Path.standing "/home/dev" "work/.././repo") "out/../bin") := by
  have habsolute : "//home/dev/x/../other//target/.".toList.head? = some '/' := by decide
  have hrelative : "out/../bin".toList.head? ≠ some '/' := by decide
  have hroot : Path.followed [] (Path.completed "/home/dev" "work/.././repo") =
      ["home", "dev", "repo"] := by decide +kernel
  have hgoal : Path.followed [] "//home/dev/x/../other//target/." =
      ["home", "dev", "other", "target"] := by decide +kernel
  have htext : normaliseTarget (Path.standing "/home/dev" "work/.././repo")
      "//home/dev/x/../other//target/." = "../other/target" := by decide +kernel
  obtain ⟨hway, -, -⟩ :=
    normaliseTarget_leads "/home/dev" "work/.././repo" "//home/dev/x/../other//target/."
  obtain ⟨-, hsame, -⟩ := normaliseTarget_leads "/home/dev" "work/.././repo" "out/../bin"
  rw [hroot, hgoal, htext] at hway
  exact ⟨⟨habsolute, hway habsolute⟩, hrelative, hsame hrelative ["srv"]⟩

end Pipeline
end CiPipeline
