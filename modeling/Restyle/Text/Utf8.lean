/-! # UTF-8 text in byte sequences

One reader, `piece`, says what the front of a byte sequence holds.  Strict decoding reports the
place of the first fault; lossy decoding turns each longest faulty stretch into one replacement
character, so it accepts every sequence.
-/
namespace Restyle.Utf8

def encode (s : String) : List UInt8 :=
  s.toList.flatMap String.utf8EncodeChar

/-- What the front of a byte sequence holds.  `extra` counts the bytes after the first one. -/
inductive Piece where
  | char (c : Char) (extra : Nat)
  /-- A longest stretch that starts no character. -/
  | fault (extra : Nat)
  /-- A character that the end of the sequence cuts short. -/
  | cut (extra : Nat)
deriving Repr, DecidableEq

/-- Continuation bytes carry six bits each. -/
def isContinuation (b : UInt8) : Bool := 0x80 ≤ b && b ≤ 0xBF

/-- What a lead byte announces: the number of continuation bytes, the range of the first one, and
the bits of the lead itself.  Ranges leave out long forms, surrogates and values past U+10FFFF. -/
def lead (b : UInt8) : Option (Nat × UInt8 × UInt8 × Nat) :=
  if 0xC2 ≤ b && b ≤ 0xDF then some (1, 0x80, 0xBF, b.toNat - 0xC0)
  else if b == 0xE0 then some (2, 0xA0, 0xBF, 0)
  else if b == 0xED then some (2, 0x80, 0x9F, 0xD)
  else if 0xE1 ≤ b && b ≤ 0xEF then some (2, 0x80, 0xBF, b.toNat - 0xE0)
  else if b == 0xF0 then some (3, 0x90, 0xBF, 0)
  else if 0xF1 ≤ b && b ≤ 0xF3 then some (3, 0x80, 0xBF, b.toNat - 0xF0)
  else if b == 0xF4 then some (3, 0x80, 0x8F, 4)
  else none

/-- Collects `need` further continuation bytes after `got` bytes that carried `bits`. -/
def tail (bits got : Nat) : Nat → List UInt8 → Piece
  | 0, _ => .char (Char.ofNat bits) got
  | _ + 1, [] => .cut got
  | need + 1, b :: bs =>
    if isContinuation b then tail (bits * 64 + (b.toNat - 0x80)) (got + 1) need bs else .fault got

def piece (b : UInt8) (bs : List UInt8) : Piece :=
  if b < 0x80 then .char (Char.ofNat b.toNat) 0
  else match lead b, bs with
    | none, _ => .fault 0
    | some _, [] => .cut 0
    | some (need, low, high, bits), c :: cs =>
      if low ≤ c && c ≤ high then tail (bits * 64 + (c.toNat - 0x80)) 1 (need - 1) cs else .fault 0

def replacementChar : Char := '\uFFFD'

/-- Decodes any sequence; each longest faulty stretch becomes one replacement character. -/
def decodeLossy : List UInt8 → List Char
  | [] => []
  | b :: bs => match piece b bs with
    | .char c extra => c :: decodeLossy (bs.drop extra)
    | .fault extra => replacementChar :: decodeLossy (bs.drop extra)
    | .cut _ => [replacementChar]
termination_by bs => bs.length
decreasing_by all_goals simp only [List.length_drop, List.length_cons]; omega

def toText (bs : List UInt8) : String := String.ofList (decodeLossy bs)

/-- Why a sequence is not UTF-8: the length of its sound part, and the length of the fault, which
is missing when the end of the sequence cuts a character short. -/
structure Fault where
  validUpTo : Nat
  size : Option Nat
deriving Repr, DecidableEq

def Fault.message (f : Fault) : String :=
  match f.size with
  | some n => s!"invalid utf-8 sequence of {n} bytes from index {f.validUpTo}"
  | none => s!"incomplete utf-8 byte sequence from index {f.validUpTo}"

/-- Strict decoding of the bytes that start at index `at_`. -/
def decodeFrom (at_ : Nat) : List UInt8 → Except Fault (List Char)
  | [] => .ok []
  | b :: bs => match piece b bs with
    | .char c extra => (decodeFrom (at_ + extra + 1) (bs.drop extra)).map (c :: ·)
    | .fault extra => .error ⟨at_, some (extra + 1)⟩
    | .cut _ => .error ⟨at_, none⟩
termination_by bs => bs.length
decreasing_by simp only [List.length_drop, List.length_cons]; omega

def decode (bs : List UInt8) : Except Fault String :=
  (decodeFrom 0 bs).map String.ofList

end Restyle.Utf8
