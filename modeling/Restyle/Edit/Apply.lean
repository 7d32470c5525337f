import Restyle.Edit.Buffer
import Restyle.Edit.Offset
import Restyle.Edit.Replacement

/-! # Applying replacements

The byte offsets of a response refer to the source; the document counts UTF-16 units and changes
with every edit.  `applyAll` carries a cursor over the source and the growth of the document so
far, so each range is located once and shifted by what came before it.
-/
namespace Restyle

inductive ApplyError where
  /-- Its range has no place in the document. -/
  | offset (index : Nat) (replacement : Replacement) (source : OffsetError)
  /-- Its range ends behind the document. -/
  | buffer (index : Nat) (replacement : Replacement) (source : RangeError)
  /-- Its range starts before the document. -/
  | negativeOffset (index : Nat) (replacement : Replacement)
deriving Repr, DecidableEq

namespace ApplyError

def index : ApplyError → Nat
  | offset i _ _ => i
  | buffer i _ _ => i
  | negativeOffset i _ => i

def message : ApplyError → String
  | offset i r source =>
    s!"Replacement {i} ({r.describe}) could not be translated. {source.message}"
  | buffer i r source =>
    s!"Replacement {i} ({r.describe}) could not be applied. {source.message}"
  | negativeOffset i r => s!"Replacement {i} ({r.describe}) resolved to a negative offset."

end ApplyError

/-- Above this many replacements the document is put into a bulk update. -/
def bulkThreshold : Nat := 1000

/-- Applies one replacement.  `growth` is the change in length that earlier replacements caused. -/
def applyOne (index : Nat) (cursor : Cursor) (growth : Int) (buffer : Buffer) (r : Replacement) :
    Except ApplyError (Cursor × Int × Buffer) := do
  let (startWide, cursor) ← (cursor.seek r.offset).mapError (ApplyError.offset index r)
  let (stopWide, cursor) ← (cursor.seek r.stop).mapError (ApplyError.offset index r)
  let start := growth + startWide
  let stop := growth + stopWide
  if start < 0 || stop < 0 then throw (.negativeOffset index r)
  let buffer ← (buffer.replaceRange start.toNat stop.toNat r.text).mapError (ApplyError.buffer index r)
  return (cursor, growth + ((Utf16.encode r.text).length - (stop - start)), buffer)

/-- Applies replacements in order.  The document comes back in any case: a failing replacement and
all after it have no effect. -/
def applyAll (index : Nat) (cursor : Cursor) (growth : Int) (buffer : Buffer) :
    List Replacement → Buffer × Option ApplyError
  | [] => (buffer, none)
  | r :: rest => match applyOne index cursor growth buffer r with
    | .error e => (buffer, some e)
    | .ok (cursor, growth, buffer) => applyAll (index + 1) cursor growth buffer rest

/-- Applies the replacements of a response to a document that still holds the text of `source`.
Long lists, and lists for a document that is in a bulk update already, run in a bulk update. -/
def applyReplacements (source : List UInt8) (buffer : Buffer) (response : Response) :
    Buffer × Option ApplyError :=
  if buffer.inBulk || bulkThreshold < response.replacements.length then
    let (buffer, failure) := applyAll 0 (.start source) 0 buffer.beginBulk response.replacements
    (buffer.endBulk, failure)
  else applyAll 0 (.start source) 0 buffer response.replacements

end Restyle
