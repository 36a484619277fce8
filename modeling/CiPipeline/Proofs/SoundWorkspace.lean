import CiPipeline.Proofs.CommandHistory

/-!
# CiPipeline.Proofs.SoundWorkspace

Trees in which everything stands in a directory, and what a command finds on a real disk.

* `Connected`           — whatever there is, it is in a directory.
* `Connected.walk_down` — so the straight way to it can be gone.
* `Connected.insert`    — a new entry in a directory, or a file in place of a file.
* `Workspace.Sound`     — a connected tree, with the current directory in it unless it was deleted.
* `effect_connected`, `run_sound` — it stays so through every command, however the command ends.
-/

namespace CiPipeline

theorem Table.mem_of_get? {κ α : Type} [DecidableEq κ] {table : Table κ α} {key : κ} {value : α}
    (h : table.get? key = some value) : (key, value) ∈ table.entries := by
  obtain ⟨before, more, hentries, -⟩ := List.lookup_eq_some_iff.mp h
  rw [hentries]
  exact List.mem_append_right before List.mem_cons_self

namespace FileTree

variable {tree made after : FileTree} {current location place : Location} {path : Path}

def Connected (tree : FileTree) : Prop :=
  ∀ location, tree.get? location ≠ none → tree.get? location.dropLast = some .directory

/-- It is enough to look at the entries of the table. -/
theorem connected_of_entries
    (h : ∀ entry ∈ tree.table.entries, tree.get? entry.1.dropLast = some .directory) :
    tree.Connected := by
  intro location hentry
  cases location with
  | nil => rfl
  | cons part rest =>
    obtain ⟨entry, hlookup⟩ := Option.ne_none_iff_exists'.mp hentry
    exact h _ (Table.mem_of_get? hlookup)

namespace Connected

theorem above (h : tree.Connected) {rest : List String}
    (hentry : tree.get? (location ++ rest) ≠ none) (hrest : rest ≠ []) :
    tree.get? location = some .directory := by
  induction rest generalizing location with
  | nil => exact absurd rfl hrest
  | cons part rest ih =>
    have hnext : tree.get? (location ++ [part]) ≠ none := by
      by_cases hnil : rest = []
      · rwa [hnil] at hentry
      · rw [List.append_cons] at hentry
        rw [ih hentry hnil]
        exact Option.some_ne_none _
    have hdirectory := h _ hnext
    rwa [List.dropLast_concat] at hdirectory

theorem walk_down (h : tree.Connected) {start : Location} {way : List String} (hdown : ".." ∉ way)
    (hentry : tree.get? (start ++ way) ≠ none) : tree.walk start way = .ok (start ++ way) := by
  induction way generalizing start with
  | nil => rw [walk, List.append_nil]
  | cons part rest ih =>
    rw [List.mem_cons, not_or] at hdown
    have hnext : next start part = start ++ [part] := if_neg (Ne.symm hdown.1)
    rw [walk_cons_of_directory (h.above hentry (List.cons_ne_nil part rest)), hnext,
      List.append_cons start part rest]
    rw [List.append_cons] at hentry
    exact ih hdown.2 hentry

/-- A way leads from directory to directory, so what is at its end would stand in one. -/
theorem walk_above (h : tree.Connected) {way : List String} {start goal : Location}
    (hstart : tree.get? start.dropLast = some .directory)
    (hwalk : tree.walk start way = .ok goal) : tree.get? goal.dropLast = some .directory := by
  have hnext (place : Location) (part : String) (hdirectory : tree.get? place = some .directory)
      (habove : tree.get? place.dropLast = some .directory) :
      tree.get? (next place part).dropLast = some .directory := by
    rw [next]
    split
    · exact h _ (by rw [habove]; exact Option.some_ne_none _)
    · rwa [List.dropLast_concat]
  exact walk_keeps hnext hstart hwalk

theorem locate_above (h : tree.Connected) (hlocate : tree.locate current path = .ok place) :
    tree.get? place.dropLast = some .directory :=
  h.walk_above rfl (walk_of_locate hlocate).2

theorem insert (h : tree.Connected) (habove : tree.get? location.dropLast = some .directory)
    {entry : Entry} (hfree : entry = .directory ∨ tree.get? location ≠ some .directory) :
    (tree.insert location entry).Connected := by
  have hkept := keepsDirectories_insert hfree
  intro other hentry
  by_cases heq : other = location
  · exact hkept _ (heq ▸ habove)
  · rw [get?_insert_of_ne heq] at hentry
    exact hkept _ (h other hentry)

theorem makeDirectory (h : tree.Connected) (hmake : tree.makeDirectory current path = .ok made) :
    made.Connected := by
  obtain ⟨place, hlocate⟩ := locate_of_makeDirectory hmake
  have habove := h.locate_above hlocate
  cases hentry : tree.get? place with
  | none =>
    rw [makeDirectory_of_none hlocate hentry] at hmake
    cases hmake
    exact h.insert habove (.inl rfl)
  | some entry =>
    cases entry with
    | directory =>
      rw [makeDirectory_of_directory hlocate hentry] at hmake
      cases hmake
      exact h
    | file content => simp only [FileTree.makeDirectory, hlocate, hentry, reduceCtorEq] at hmake
    | config config => simp only [FileTree.makeDirectory, hlocate, hentry, reduceCtorEq] at hmake

theorem makeDirectories (h : tree.Connected) (current : Location) (path : Path) :
    (tree.makeDirectories current path).1.Connected :=
  makeDirectoriesTo_keeps (fun _ _ _ hbefore hmade => hbefore.makeDirectory hmade) h rfl

theorem write (h : tree.Connected) {written : WrittenPath} {content : Bytes}
    (hwrite : tree.write current written content = .ok after) : after.Connected := by
  obtain ⟨place, hlocate, hfree, rfl⟩ := write_cases hwrite
  exact h.insert (h.locate_above hlocate) (.inr hfree)

end Connected
end FileTree

namespace WorkflowFiles

variable {current : Location} {tree : FileTree} {dir : Path}

theorem writeAll_connected (h : tree.Connected) (files : List (String × Text)) :
    (writeAll current dir files tree).1.Connected :=
  writeAll_keeps (fun _ _ _ _ hbefore hwrite => hbefore.write (write_of_writeText hwrite)) h

end WorkflowFiles

/-! ## Workspaces -/

/-- A workspace that a machine can be in. -/
structure Workspace.Sound (space : Workspace) : Prop where
  connected : space.tree.Connected
  standing : space.stranded = false → space.Standing

namespace Command

theorem effect_connected {tree : FileTree} (h : tree.Connected) (command : Command)
    (current : Location) (root : Path) (settings : Settings) :
    (command.effect current root settings tree).1.Connected := by
  have hmade := h.makeDirectories current (WorkflowFiles.directory root)
  rcases tree_of_effect command current root settings tree with hsame | hsame | ⟨files, -, hsame⟩
  · rwa [hsame]
  · rwa [hsame]
  · rw [hsame]
    exact WorkflowFiles.writeAll_connected hmade files

variable {space : Workspace}

/-- Whatever a command does, the machine it is run on can be in the state it leaves. -/
theorem run_sound (h : space.Sound) (options : Options) (command : Command) :
    (run space options command).1.Sound where
  connected := by
    rcases tree_of_run space options command with hsame | ⟨root, settings, heffect⟩
    · rw [hsame]
      exact h.connected
    · rw [heffect]
      exact effect_connected h.connected command space.current root settings
  standing := by
    rw [run_surroundings]
    intro hinUse
    have hstanding := h.standing hinUse
    have hfound := (run_updated space options command).find_directory hstanding.found
    exact ⟨hinUse, hstanding.down, hfound⟩

end Command
end CiPipeline
