import Restyle.Text.Utf16

/-! # The document

A document is a sequence of UTF-16 units with a modification stamp, which changes with every
mutation, and a bracket count for bulk updates.
-/
namespace Restyle

structure RangeError where
  start : Nat
  stop : Nat
  len : Nat
deriving Repr, DecidableEq

def RangeError.message (e : RangeError) : String :=
  s!"Range {e.start}..{e.stop} is outside the buffer (length {e.len})."

structure Buffer where
  units : List UInt16 := []
  stamp : Nat := 0
  bulkDepth : Nat := 0
  bulkUpdates : Nat := 0
deriving Repr, DecidableEq, Inhabited

namespace Buffer

def ofText (text : String) : Buffer := { units := Utf16.encode text }

/-- The content as text; lone surrogates show as U+FFFD. -/
def text (b : Buffer) : String := Utf16.toText b.units

def size (b : Buffer) : Nat := b.units.length

def setText (b : Buffer) (text : String) : Buffer :=
  { b with units := Utf16.encode text, stamp := b.stamp + 1 }

/-- Replaces the units from `start` up to `stop`; a range outside the document changes nothing. -/
def replaceRange (b : Buffer) (start stop : Nat) (text : String) : Except RangeError Buffer :=
  if stop < start || b.units.length < stop then .error ⟨start, stop, b.units.length⟩
  else .ok { b with
    units := b.units.take start ++ Utf16.encode text ++ b.units.drop stop, stamp := b.stamp + 1 }

def inBulk (b : Buffer) : Bool := 0 < b.bulkDepth

/-- Opens a bulk update; only an outermost one is counted. -/
def beginBulk (b : Buffer) : Buffer :=
  { b with
    bulkUpdates := if b.bulkDepth = 0 then b.bulkUpdates + 1 else b.bulkUpdates
    bulkDepth := b.bulkDepth + 1 }

/-- Closes a bulk update; a surplus close is ignored. -/
def endBulk (b : Buffer) : Buffer := { b with bulkDepth := b.bulkDepth - 1 }

end Buffer
end Restyle
