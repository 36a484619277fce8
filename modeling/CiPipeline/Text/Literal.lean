import CiPipeline.Text.Printable

/-!
# CiPipeline.Text.Literal

Text between quotes, so that it reads on one line and every character of it can be told.

* `Literal.quoteFor` — single quotes, or double ones where that saves escapes.
* `Literal.escape`   — a character as it stands between the quotes.
* `Literal.write`    — the whole literal.
-/

namespace CiPipeline
namespace Literal

/-- Double quotes are for texts that hold single quotes and no double ones. -/
def quoteFor (t : Text) : Char := if t.contains '\'' && !t.contains '"' then '"' else '\''

/-- A code in hexadecimal digits, zeros in front up to a width. -/
def hex (width code : Nat) : Text :=
  let digits := Nat.toDigits 16 code
  List.replicate (width - digits.length) '0' ++ digits

/-- The shortest of the three numeric forms is taken for a character that is not printable. -/
def escape (quote c : Char) : Text :=
  if c = '\\' || c = quote then ['\\', c]
  else if c = '\n' then ['\\', 'n']
  else if c = '\r' then ['\\', 'r']
  else if c = '\t' then ['\\', 't']
  else if Printable.isPrintable c then [c]
  else if c.toNat < 0x100 then '\\' :: 'x' :: hex 2 c.toNat
  else if c.toNat < 0x10000 then '\\' :: 'u' :: hex 4 c.toNat
  else '\\' :: 'U' :: hex 8 c.toNat

def write (s : String) : String :=
  let quote := quoteFor s
  String.ofList (quote :: s.toList.flatMap (escape quote) ++ [quote])

end Literal
end CiPipeline
