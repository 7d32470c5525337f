import Restyle.Edit.Apply
import Restyle.Format.Outcome

/-! # Prepared edits

The replacements for a snapshot of a document.  They are applied only while the document has the
stamp of the snapshot.
-/
namespace Restyle

/-- Replacements for the bytes of a document that had a stamp. -/
structure PreparedEdit where
  source : List UInt8
  stamp : Nat
  response : Response
deriving Repr, DecidableEq

inductive Prepared where
  | edit (e : PreparedEdit)
  | done (o : Outcome)
deriving Repr, DecidableEq

namespace PreparedEdit

def apply (e : PreparedEdit) (b : Buffer) : Except Failure Outcome × Buffer :=
  if b.stamp ≠ e.stamp then (.ok .stale, b)
  else if e.response.isEmpty then (.ok .noChanges, b)
  else match applyReplacements e.source b e.response with
    | (b, none) => (.ok (.applied e.response.size), b)
    | (b, some cause) => (.error (.decode (.unapplicable cause)), b)

end PreparedEdit
end Restyle
