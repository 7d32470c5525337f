import Restyle.Text.Number
import Restyle.Text.Quoted

/-! # Replacements

A replacement exchanges a range of bytes of the source for a text.  A response is the list of
replacements that the formatting tool answers with.
-/
namespace Restyle

/-- Exchange `length` bytes at byte `offset` of the source for `text`. -/
structure Replacement where
  offset : Nat
  length : Nat
  text : String
deriving Repr, DecidableEq, Inhabited

namespace Replacement

/-- The end of the replaced range.  Ranges past the largest offset end there; no document reaches
that far. -/
def stop (r : Replacement) : Nat := min (r.offset + r.length) maxWord

def describe (r : Replacement) : String :=
  s!"Replacement \x7b offset: {r.offset}, length: {r.length}, text: {Text.quote r.text} \x7d"

end Replacement

structure Response where
  replacements : List Replacement := []
  /-- The tool met a syntax error; informational only. -/
  incompleteFormat : Bool := false
deriving Repr, DecidableEq, Inhabited

namespace Response

def size (r : Response) : Nat := r.replacements.length

def isEmpty (r : Response) : Bool := r.replacements.isEmpty

end Response
end Restyle
