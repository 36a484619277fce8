import CiPipeline.Text

/-!
# CiPipeline.Text.Indent

Indentation of a block of lines.

* `Text.shift`      — every line moved to the right, space by space.
* `Text.clearBlank` — lines that hold nothing but spaces made empty.
* `Text.indent`     — the two together, by levels of two columns: blank separators of a
                      document carry no trailing spaces.
-/

namespace CiPipeline
namespace Text

def spaces (n : Nat) : Text := List.replicate n ' '

/-- `n` spaces in front of the text and after each of its newlines. -/
def shift (n : Nat) (t : Text) : Text :=
  spaces n ++ t.flatMap fun c => if c = '\n' then '\n' :: spaces n else [c]

/-- Reads on from a place where the line so far is `some n`, that many spaces and nothing else,
or `none`, a line that holds something already. -/
def clearFrom : Option Nat → Text → Text
  | _, [] => []
  | some n, c :: rest =>
    if c = ' ' then clearFrom (some (n + 1)) rest
    else if c = '\n' then '\n' :: clearFrom (some 0) rest
    else spaces n ++ c :: clearFrom none rest
  | none, c :: rest =>
    if c = '\n' then '\n' :: clearFrom (some 0) rest
    else c :: clearFrom none rest

/-- Empties the lines made of spaces only, in one pass over the text. -/
def clearBlank (t : Text) : Text := clearFrom (some 0) t

/-- A level is two columns, and no level is to the left of the margin. -/
def columns (level : Int) : Nat := 2 * level.toNat

def indent (level : Int) (t : Text) : Text := clearBlank (shift (columns level) t)

end Text
end CiPipeline
