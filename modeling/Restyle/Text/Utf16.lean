/-! # UTF-16 code units

A character is one unit, or a high and a low surrogate.  Decoding accepts every sequence of units:
a surrogate without its partner is shown as the replacement character.
-/
namespace Restyle.Utf16

def ofChar (c : Char) : List UInt16 :=
  if c.toNat < 0x10000 then [c.toNat.toUInt16]
  else [(0xD800 + (c.toNat - 0x10000) / 0x400).toUInt16, (0xDC00 + (c.toNat - 0x10000) % 0x400).toUInt16]

def encode (s : String) : List UInt16 := s.toList.flatMap ofChar

def isHigh (u : UInt16) : Bool := 0xD800 ≤ u && u ≤ 0xDBFF

def isLow (u : UInt16) : Bool := 0xDC00 ≤ u && u ≤ 0xDFFF

def pair (high low : UInt16) : Char :=
  Char.ofNat (0x10000 + (high.toNat - 0xD800) * 0x400 + (low.toNat - 0xDC00))

/-- Decodes any sequence of units; a lone surrogate becomes U+FFFD. -/
def decode : List UInt16 → List Char
  | [] => []
  | [u] => [if isHigh u || isLow u then '\uFFFD' else Char.ofNat u.toNat]
  | u :: v :: rest =>
    if isHigh u then
      if isLow v then pair u v :: decode rest else '\uFFFD' :: decode (v :: rest)
    else if isLow u then '\uFFFD' :: decode (v :: rest)
    else Char.ofNat u.toNat :: decode (v :: rest)

def toText (units : List UInt16) : String := String.ofList (decode units)

end Restyle.Utf16
