import Restyle.Decimal.Binary

/-! # Decimal notation

Numbers of 64 bits in their shortest digits: positional from `1e-5` up to `1e16`, where whole numbers
end in `.0`, and with an exponent elsewhere.
-/
namespace Restyle.Decimal

/-- Digits times a power of ten, in positional notation or with an exponent. -/
def layOut (digits : List Char) (scale : Int) : List Char :=
  let size : Int := digits.length
  let point := size + scale
  if 0 ≤ scale ∧ point ≤ 16 then digits ++ List.replicate scale.toNat '0' ++ ['.', '0']
  else if 0 < point ∧ point ≤ 16 then digits.take point.toNat ++ '.' :: digits.drop point.toNat
  else if -5 < point ∧ point ≤ 0 then '0' :: '.' :: (List.replicate (-point).toNat '0' ++ digits)
  else
    let exponent := (toString (point - 1)).toList
    match digits with
    | [d] => d :: 'e' :: exponent
    | d :: ds => d :: '.' :: (ds ++ 'e' :: exponent)
    | [] => []

def Binary.text (b : Binary) : List Char :=
  if b.mantissa = 0 then ['0', '.', '0']
  else
    let (digits, scale) := shortest b
    layOut (Nat.toDigits 10 digits) scale

/-- A decimal number as it is written: digits, and the power of ten that they count. -/
structure Written where
  digits : Nat
  scale : Int
deriving Repr, DecidableEq

def valueOfDigits (cs : List Char) : Nat := cs.foldl (fun n c => n * 10 + (c.toNat - 0x30)) 0

def Written.read? (cs : List Char) : Option Written :=
  let isDigit := fun (c : Char) => 0x30 ≤ c.toNat && c.toNat ≤ 0x39
  let whole := cs.takeWhile isDigit
  let rest := cs.dropWhile isDigit
  let (fraction, rest) := match rest with
    | '.' :: rest => (rest.takeWhile isDigit, rest.dropWhile isDigit)
    | rest => ([], rest)
  if whole.isEmpty && fraction.isEmpty then none
  else
    let digits := valueOfDigits (whole ++ fraction)
    let places : Int := fraction.length
    match rest with
    | [] => some ⟨digits, -places⟩
    | e :: rest =>
      if e ≠ 'e' ∧ e ≠ 'E' then none
      else
        let (negative, exponent) := match rest with
          | '-' :: rest => (true, rest)
          | '+' :: rest => (false, rest)
          | rest => (false, rest)
        if exponent.isEmpty || !exponent.all isDigit then none
        else
          let n : Int := valueOfDigits exponent
          some ⟨digits, (if negative then -n else n) - places⟩

/-- The nearest number of 64 bits; none if that is infinite. -/
def Written.nearest? (w : Written) : Option Binary := ofDigits w.digits w.scale

end Restyle.Decimal
