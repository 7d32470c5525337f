/-! # Binary floating point numbers in exact arithmetic

A finite positive number of 64 bits is `mantissa * 2 ^ exponent`.  `nearest` rounds a fraction to
such a number, ties to the even mantissa; `shortest` finds the fewest decimal digits that round
back to it, of those the closest, ties to the even digit.
-/
namespace Restyle.Decimal

/-- A finite nonnegative number `mantissa * 2 ^ exponent`. -/
structure Binary where
  mantissa : Nat
  exponent : Int
deriving Repr, DecidableEq

def minExponent : Int := -1074

def maxExponent : Int := 971

def power (base : Nat) (e : Int) : Nat × Nat :=
  if 0 ≤ e then (Nat.pow base e.toNat, 1) else (1, Nat.pow base (-e).toNat)

/-- Quotient of `num / den` by `base ^ e`, rounded down, with the remainder and its divisor. -/
def quotient (num den base : Nat) (e : Int) : Nat × Nat × Nat :=
  let (up, down) := power base e
  let n := num * down
  let d := den * up
  (n / d, n % d, d)

/-- The number of 64 bits that is nearest to `num / den`; none if that is infinite. -/
def nearest (num den : Nat) : Option Binary :=
  if num = 0 then some ⟨0, minExponent⟩
  else
    let span : Int := (Nat.log2 num : Int) - Nat.log2 den
    let low := span - 53
    let exponent := if (quotient num den 2 low).1 < Nat.pow 2 53 then low else low + 1
    let exponent := max exponent minExponent
    let (whole, rest, divisor) := quotient num den 2 exponent
    let up := divisor < 2 * rest ∨ (divisor = 2 * rest ∧ whole % 2 = 1)
    let mantissa := if up then whole + 1 else whole
    let (mantissa, exponent) :=
      if mantissa = Nat.pow 2 53 then (Nat.pow 2 52, exponent + 1) else (mantissa, exponent)
    if maxExponent < exponent then none else some ⟨mantissa, exponent⟩

def ofDigits (digits : Nat) (scale : Int) : Option Binary :=
  let size : Int := (Nat.toDigits 10 digits).length
  if digits = 0 ∨ size + scale < -400 then some ⟨0, minExponent⟩
  else if 400 < size + scale then none
  else
    let (up, down) := power 10 scale
    nearest (digits * up) down

/-- The power of ten at or below `num / den`. -/
def magnitude (num den : Nat) : Int :=
  if den ≤ num then (Nat.toDigits 10 (num / den)).length - 1
  else -((Nat.toDigits 10 ((den + num - 1) / num - 1)).length : Int)

/-- Whether `digits * 10 ^ scale` rounds to `b`, by comparison with the middles between `b` and its
neighbours.  The middles themselves count if the mantissa is even. -/
def roundsTo (b : Binary) (digits : Nat) (scale : Int) : Bool :=
  let below := if b.mantissa = Nat.pow 2 52 ∧ minExponent < b.exponent then 1 else 2
  let (up, down) := power 2 (b.exponent - 2)
  let (tens, tenths) := power 10 scale
  let value := digits * tens * down
  let low := (4 * b.mantissa - below) * up * tenths
  let high := (4 * b.mantissa + 2) * up * tenths
  if b.mantissa % 2 = 0 then low ≤ value && value ≤ high else low < value && value < high

/-- Of two neighbours on the decimal grid `10 ^ scale` around `num / den`, the one that rounds to
`b` and lies closer. -/
def onGrid (b : Binary) (num den : Nat) (scale : Int) : Option Nat :=
  let (low, rest, divisor) := quotient num den 10 scale
  match roundsTo b low scale, roundsTo b (low + 1) scale with
  | false, false => none
  | true, false => some low
  | false, true => some (low + 1)
  | true, true =>
    if divisor < 2 * rest ∨ (divisor = 2 * rest ∧ low % 2 = 1) then some (low + 1) else some low

/-- The shortest digits of a positive number, as `digits * 10 ^ scale`.  On the first grid a number
just below a power of ten may round up to it, and then loses the zero. -/
def shortest (b : Binary) : Nat × Int :=
  let (up, down) := power 2 b.exponent
  let num := b.mantissa * up
  let top := magnitude num down
  let found := (List.range 17).findSome? fun (n : Nat) =>
    let scale := top - n
    (onGrid b num down scale).map fun digits =>
      if digits % 10 = 0 then (digits / 10, scale + 1) else (digits, scale)
  found.getD (0, 0)

end Restyle.Decimal
