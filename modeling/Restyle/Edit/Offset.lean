/-! # From byte offsets to UTF-16 offsets

A `Cursor` scans UTF-8 bytes forward by whole code points and counts UTF-16 units.  Requests go
forward only; the size of a code point is taken from its lead byte alone, so the cursor may come to
stand beyond the requested offset and, after a character that is cut short, beyond the bytes.
-/
namespace Restyle

inductive OffsetError where
  | rewind (requested cursor : Nat)
  | outOfRange (requested len : Nat)
deriving Repr, DecidableEq

namespace OffsetError

def message : OffsetError → String
  | rewind requested cursor =>
    s!"Byte offset {requested} is before the converter cursor at {cursor}."
  | outOfRange requested len =>
    s!"Byte offset {requested} is past the end of the text ({len} bytes)."

end OffsetError

/-- Byte length and UTF-16 length of the code point that starts with `lead`.  A stray continuation
byte or an invalid lead counts as one byte and one unit. -/
def codePointSize (lead : UInt8) : Nat × Nat :=
  if lead ≤ 0x7F then (1, 1)
  else if 0xC0 ≤ lead && lead ≤ 0xDF then (2, 1)
  else if 0xE0 ≤ lead && lead ≤ 0xEF then (3, 1)
  else if 0xF0 ≤ lead && lead ≤ 0xF7 then (4, 2)
  else (1, 1)

/-- A position in a byte sequence: how far the scan has come in bytes and in units, the bytes that
are still ahead, and the length of the whole sequence. -/
structure Cursor where
  byte : Nat
  wide : Nat
  ahead : List UInt8
  len : Nat
deriving Repr, DecidableEq

namespace Cursor

def start (bytes : List UInt8) : Cursor := ⟨0, 0, bytes, bytes.length⟩

/-- Scans whole code points until the byte position reaches `target`. -/
def scan (target byte wide : Nat) : List UInt8 → Nat × Nat × List UInt8
  | [] => (byte, wide, [])
  | b :: bs =>
    if byte < target then
      let size := codePointSize b
      scan target (byte + size.1) (wide + size.2) (bs.drop (size.1 - 1))
    else (byte, wide, b :: bs)
termination_by bs => bs.length
decreasing_by simp only [List.length_drop, List.length_cons]; omega

/-- Moves on to byte offset `target` and answers the offset in UTF-16 units.  A request that fails
leaves the cursor where it was. -/
def seek (c : Cursor) (target : Nat) : Except OffsetError (Nat × Cursor) :=
  if target < c.byte then .error (.rewind target c.byte)
  else if c.len < target then .error (.outOfRange target c.len)
  else
    let (byte, wide, ahead) := scan target c.byte c.wide c.ahead
    .ok (wide, { c with byte, wide, ahead })

end Cursor
end Restyle
