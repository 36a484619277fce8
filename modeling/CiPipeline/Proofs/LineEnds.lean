import CiPipeline.Text.LineEnd

/-!
# CiPipeline.Proofs.LineEnds

Reading a text with its line ends made alike.

* `plainEnds_of_notMem`    — a text without carriage returns is left as it is.
* `normalLines_plainEnds`  — line ends that were made alike once make no difference to the lines.
-/

namespace CiPipeline
namespace Text

theorem joinPairs_of_notMem {t : Text} (h : '\r' ∉ t) : joinPairs t = t := by
  induction t with
  | nil => rfl
  | cons c rest ih =>
    rw [List.mem_cons, not_or] at h
    rw [joinPairs, ih h.2]
    intro _ hc _
    exact h.1 hc.symm

theorem joinReturns_of_notMem {t : Text} (h : '\r' ∉ t) : joinReturns t = t := by
  rw [joinReturns]
  conv => rhs; rw [← List.map_id t]
  apply List.map_congr_left
  intro c hc
  have hne : c ≠ '\r' := by
    rintro rfl
    exact h hc
  exact if_neg hne

theorem plainEnds_of_notMem {t : Text} (h : '\r' ∉ t) : plainEnds t = t := by
  rw [plainEnds, joinPairs_of_notMem h, joinReturns_of_notMem h]

theorem return_notMem_plainEnds (t : Text) : '\r' ∉ plainEnds t := by
  intro h
  obtain ⟨c, _, hc⟩ := List.mem_map.mp h
  by_cases hr : c = '\r'
  · rw [if_pos hr] at hc
    exact absurd hc (by decide)
  · rw [if_neg hr] at hc
    exact hr hc

theorem normalLines_plainEnds (t : Text) : normalLines (plainEnds t) = normalLines t := by
  rw [normalLines, plainEnds_of_notMem (return_notMem_plainEnds t), normalLines]

end Text
end CiPipeline
