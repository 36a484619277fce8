import CiPipeline.Text.Indent

/-!
# CiPipeline.Scalar

How a value is written into a YAML document.

* `Scalar.isPlain`   — whether a value may stand as it is.
* `Scalar.quoted`    — a value between single quotes, each quote inside written twice.
* `Scalar.block`     — a value of several lines as a literal block.
* `Scalar.write`     — the form a value is written in: every value that a user chooses passes here.
* `Scalar.flowList`  — values in brackets on one line.
* `Scalar.blockList` — values under each other, a dash before each.
-/

namespace CiPipeline
namespace Scalar

/-- Characters that change the meaning of a plain scalar when they lead it. -/
def indicators : List Char :=
  ['!', '*', '-', '?', '{', '}', '[', ']', ',', '|', '>', '@', '\x60', '\'', '"', '&']

/-- Colons and hash signs are refused anywhere, indicators in front only. -/
def isPlain (t : Text) : Bool :=
  !t.contains ':' && !t.contains '#' &&
    match t with
    | [] => true
    | c :: _ => !indicators.contains c

def doubled (t : Text) : Text := t.flatMap fun c => if c = '\'' then ['\'', '\''] else [c]

def quoted (t : Text) : Text := '\'' :: doubled t ++ ['\'']

def block (t : Text) : Text := '|' :: '\n' :: Text.indent 1 t

def write (t : Text) : Text :=
  if t.contains '\n' then block t
  else if isPlain t then t
  else quoted t

def flowList (items : List String) : Text :=
  "[" ++ Text.joined ", " (items.map fun item : String => write item) ++ "]"

def blockList (items : List String) : Text :=
  Text.joined "\n" (items.map fun item : String => "- " ++ write item)

end Scalar
end CiPipeline
