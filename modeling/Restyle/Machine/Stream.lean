import Restyle.Text.Utf8

/-! # Streams of bytes

What a program reads and writes: some bytes, and then possibly a cycle of bytes that repeats without
end.
-/
namespace Restyle

/-- Some bytes, and bytes that repeat forever after them. -/
structure Stream where
  bytes : List UInt8 := []
  cycle : List UInt8 := []
deriving Repr, DecidableEq, Inhabited

namespace Stream

def ofText (text : String) : Stream := ⟨Utf8.encode text, []⟩

def isEndless (s : Stream) : Bool := !s.cycle.isEmpty

def repeated (cycle : List UInt8) (n : Nat) : List UInt8 :=
  if cycle.isEmpty then []
  else ((List.replicate (n / cycle.length + 1) cycle).flatten).take n

def take (s : Stream) (n : Nat) : List UInt8 :=
  let first := s.bytes.take n
  first ++ repeated s.cycle (n - first.length)

def drop (s : Stream) (n : Nat) : Stream :=
  if n ≤ s.bytes.length then ⟨s.bytes.drop n, s.cycle⟩
  else
    let past := (n - s.bytes.length) % max 1 s.cycle.length
    ⟨s.cycle.drop past, s.cycle⟩

/-- The first line with its line feed, and what is left.  The bytes of a cycle count once. -/
def line (s : Stream) : List UInt8 × Stream :=
  let known := s.bytes ++ s.cycle
  let body := known.takeWhile (· ≠ 10)
  let size := if body.length < known.length then body.length + 1 else body.length
  (known.take size, s.drop size)

def flatMap (s : Stream) (f : UInt8 → List UInt8) : Stream :=
  ⟨s.bytes.flatMap f, s.cycle.flatMap f⟩

end Stream
end Restyle
