/-! # Spans of time

A span is counted in microseconds.  Its short form uses the largest unit that fits and drops
trailing zeros of the fraction: `10s`, `1.5s`, `25ms`, `3µs`, `0ns`.
-/
namespace Restyle

structure Span where
  micros : Nat
deriving Repr, DecidableEq, Inhabited

namespace Span

def ofMillis (ms : Nat) : Span := ⟨ms * 1000⟩

def millis (s : Span) : Nat := s.micros / 1000

def seconds (s : Span) : Nat := s.micros / 1000000

/-- The digits of `part` out of `10 ^ places`, with leading zeros and without trailing ones. -/
def fraction (part places : Nat) : List Char :=
  let digits := Nat.toDigits 10 part
  let padded := List.replicate (places - digits.length) '0' ++ digits
  (padded.reverse.dropWhile (· == '0')).reverse

def decimal (whole part places : Nat) (unit : String) : String :=
  let digits := fraction part places
  if digits.isEmpty then s!"{whole}{unit}" else s!"{whole}.{String.ofList digits}{unit}"

def short (s : Span) : String :=
  if 1000000 ≤ s.micros then decimal (s.micros / 1000000) (s.micros % 1000000) 6 "s"
  else if 1000 ≤ s.micros then decimal (s.micros / 1000) (s.micros % 1000) 3 "ms"
  else if 0 < s.micros then s!"{s.micros}µs"
  else "0ns"

end Span
end Restyle
