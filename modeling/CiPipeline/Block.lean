import CiPipeline.ModelError
import CiPipeline.Scalar
import CiPipeline.Table

/-!
# CiPipeline.Block

Blocks of keys and values, as they stand under `env:` and `with:`.

* `Block.keyAllowed` — whether a key may stand before a colon without quotes.
* `Block.write`      — the block under a title; a table without entries has no block.
-/

namespace CiPipeline
namespace Block

def keyAllowed (key : Text) : Bool := Scalar.isPlain key && !key.contains ' '

def entry (field : String × String) : Except ModelError Text :=
  if keyAllowed field.1 then .ok (field.1 ++ ": " ++ Scalar.write field.2)
  else .error (.invalidKey field.1)

/-- The first key that is not allowed is the one reported. -/
def write (title : Text) (fields : Fields String) : Except ModelError Text :=
  if fields.isEmpty then .ok []
  else match fields.entries.mapM entry with
    | .error e => .error e
    | .ok entries => .ok (title ++ ":\n" ++ Text.indent 1 (Text.joined "\n" entries))

end Block
end CiPipeline
