/-! # Reading numbers

Unsigned decimal numbers of 64 bits, with an optional plus sign.  A text is read from left to
right; the first digit that is none, or that makes the number too large, decides the fault.
-/
namespace Restyle

def maxWord : Nat := UInt64.size - 1

inductive NumberFault where
  | empty
  | invalidDigit
  | tooLarge
deriving Repr, DecidableEq

def NumberFault.message : NumberFault → String
  | empty => "cannot parse integer from empty string"
  | invalidDigit => "invalid digit found in string"
  | tooLarge => "number too large to fit in target type"

namespace Text

def digitValue? (c : Char) : Option Nat :=
  if 0x30 ≤ c.toNat && c.toNat ≤ 0x39 then some (c.toNat - 0x30) else none

def hexValue? (c : Char) : Option Nat :=
  if '0' ≤ c ∧ c ≤ '9' then some (c.toNat - 0x30)
  else if 'a' ≤ c ∧ c ≤ 'f' then some (c.toNat - 0x61 + 10)
  else if 'A' ≤ c ∧ c ≤ 'F' then some (c.toNat - 0x41 + 10)
  else none

/-- Reads further digits after a number with value `acc`. -/
def readDigits (acc : Nat) : List Char → Except NumberFault Nat
  | [] => .ok acc
  | c :: cs => match digitValue? c with
    | none => .error .invalidDigit
    | some d => if maxWord < acc * 10 + d then .error .tooLarge else readDigits (acc * 10 + d) cs

def readWord (cs : List Char) : Except NumberFault Nat :=
  match cs with
  | [] => .error .empty
  | ['+'] => .error .invalidDigit
  | '+' :: digits => readDigits 0 digits
  | digits => readDigits 0 digits

end Text
end Restyle
