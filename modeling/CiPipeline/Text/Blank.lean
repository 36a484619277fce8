import CiPipeline.Text

/-!
# CiPipeline.Text.Blank

Blank characters, and texts without blanks at their ends.

* `Blank.isBlank` — the blanks: those of the character database, and the four separators among
                    the control characters.
* `Blank.trim`    — a text without the blanks at both ends.
-/

namespace CiPipeline
namespace Blank

/-- First and last character of each range of blanks. -/
def ranges : List (Nat × Nat) :=
  [(0x09, 0x0D), (0x1C, 0x20), (0x85, 0x85), (0xA0, 0xA0), (0x1680, 0x1680), (0x2000, 0x200A),
    (0x2028, 0x2029), (0x202F, 0x202F), (0x205F, 0x205F), (0x3000, 0x3000)]

def isBlank (c : Char) : Bool :=
  ranges.any fun range => range.1 ≤ c.toNat && c.toNat ≤ range.2

def trim (t : Text) : Text := ((t.dropWhile isBlank).reverse.dropWhile isBlank).reverse

theorem isBlank_of_isWhitespace {c : Char} (h : c.isWhitespace) : isBlank c := by
  simp only [Char.isWhitespace, Bool.or_eq_true, decide_eq_true_eq] at h
  rcases h with ((rfl | rfl) | rfl) | rfl <;> decide

end Blank
end CiPipeline
