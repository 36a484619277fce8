import CiPipeline.Text

/-!
# CiPipeline.Text.LineEnd

Line ends as a checkout may leave them: a newline, a carriage return, or the two in a row.

* `Text.joinPairs`  — a carriage return and a newline in a row become one newline.
* `Text.joinReturns` — a carriage return becomes a newline.
* `Text.plainEnds`  — the two in turn: every line ends in a newline, as in a file read as text.
* `Text.dropFinal`  — the text without its final newline, if it ends in one.
* `Text.normalLines` — all of it: two files that differ only in line ends, or in one final
                       line end, have the same normal lines.
-/

namespace CiPipeline
namespace Text

def joinPairs : Text → Text
  | [] => []
  | '\r' :: '\n' :: rest => '\n' :: joinPairs rest
  | c :: rest => c :: joinPairs rest

def joinReturns (t : Text) : Text := t.map fun c => if c = '\r' then '\n' else c

/-- No other separator ends a line: U+0085, U+2028 and their like are content. -/
def plainEnds (t : Text) : Text := joinReturns (joinPairs t)

def dropFinal (t : Text) : Text := if t.getLast? = some '\n' then t.dropLast else t

def normalLines (t : Text) : Text := dropFinal (plainEnds t)

end Text
end CiPipeline
