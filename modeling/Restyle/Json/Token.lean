import Restyle.Text.Number

/-! # JSON tokens

Words, texts and marks.  The reader goes through the characters once; what it has read of the
current token is its state.
-/
namespace Restyle

inductive JsonToken where
  | openItems
  | closeItems
  | openMembers
  | closeMembers
  | comma
  | colon
  | null
  | bool (b : Bool)
  | whole (n : Int)
  | fraction (literal : String)
  | text (s : String)
deriving Repr, DecidableEq

namespace JsonToken

def isSpace (c : Char) : Bool := c == ' ' || c == '\t' || c == '\n' || c == '\r'

def isWordChar (c : Char) : Bool := c.isAlphanum || c == '+' || c == '-' || c == '.'

def mark? (c : Char) : Option JsonToken :=
  if c = '[' then some openItems
  else if c = ']' then some closeItems
  else if c = '\x7b' then some openMembers
  else if c = '\x7d' then some closeMembers
  else if c = ',' then some comma
  else if c = ':' then some colon
  else none

/-- The value of decimal digits; at least one is needed, and a zero in front only by itself. -/
def natural? (digits : List Char) : Option Nat :=
  if digits.isEmpty || !digits.all Char.isDigit || (digits.head? = some '0' && digits.length ≠ 1) then none
  else some (digits.foldl (fun n c => n * 10 + (c.toNat - '0'.toNat)) 0)

/-- The end of a number after its whole part: a fraction, an exponent, or both. -/
def isFractionEnd (cs : List Char) : Bool :=
  let (places, rest) := match cs with
    | '.' :: rest => (some (rest.takeWhile Char.isDigit), rest.dropWhile Char.isDigit)
    | rest => (none, rest)
  let exponent := match rest with
    | [] => true
    | e :: rest =>
      let digits := match rest with
        | '+' :: ds => ds
        | '-' :: ds => ds
        | ds => ds
      (e == 'e' || e == 'E') && !digits.isEmpty && digits.all Char.isDigit
  !cs.isEmpty && (places.all fun f => !f.isEmpty) && exponent

/-- The token of a word.  Minus zero is no whole number. -/
def ofWord? (word : List Char) : Option JsonToken :=
  if word = ['n', 'u', 'l', 'l'] then some null
  else if word = ['t', 'r', 'u', 'e'] then some (bool true)
  else if word = ['f', 'a', 'l', 's', 'e'] then some (bool false)
  else
    let (negative, body) := match word with
      | '-' :: rest => (true, rest)
      | rest => (false, rest)
    match natural? body with
    | some n =>
      if negative then some (if n = 0 then fraction "-0" else whole (-n)) else some (whole n)
    | none =>
      if (natural? (body.takeWhile Char.isDigit)).isSome && isFractionEnd (body.dropWhile Char.isDigit)
      then some (fraction (String.ofList word)) else none

def unescape? (c : Char) : Option Char :=
  if c = '"' ∨ c = '\\' ∨ c = '/' then some c
  else if c = 'b' then some '\x08'
  else if c = 'f' then some '\x0C'
  else if c = 'n' then some '\n'
  else if c = 'r' then some '\r'
  else if c = 't' then some '\t'
  else none

/-- What has been read of the current token.  Texts are kept latest character first. -/
inductive Partial where
  | between
  | word (acc : List Char)
  | text (acc : List Char)
  | escape (acc : List Char)
  /-- A numeric escape that still needs `owed` digits, perhaps after the first half of a pair. -/
  | code (acc : List Char) (high : Option Nat) (owed value : Nat)
  /-- The first half of a pair was read; what must follow is a backslash, then a letter. -/
  | half (acc : List Char) (high : Nat) (slash : Bool)

/-- Starts a token at a character; a mark is complete at once. -/
def start? (c : Char) : Option (List JsonToken × Partial) :=
  if isSpace c then some ([], .between)
  else if c = '"' then some ([], .text [])
  else if isWordChar c then some ([], .word [c])
  else (mark? c).map fun t => ([t], .between)

/-- The state after a code unit of a numeric escape; halves must come in pairs. -/
def endCode? (acc : List Char) (high : Option Nat) (unit : Nat) : Option Partial :=
  match high with
  | none =>
    if 0xD800 ≤ unit ∧ unit ≤ 0xDBFF then some (.half acc unit false)
    else if 0xDC00 ≤ unit ∧ unit ≤ 0xDFFF then none
    else some (.text (Char.ofNat unit :: acc))
  | some h =>
    if 0xDC00 ≤ unit ∧ unit ≤ 0xDFFF then
      some (.text (Char.ofNat (0x10000 + (h - 0xD800) * 0x400 + (unit - 0xDC00)) :: acc))
    else none

/-- Takes one character: the tokens that it completes, and the state after it. -/
def step? (p : Partial) (c : Char) : Option (List JsonToken × Partial) :=
  match p with
  | .between => start? c
  | .word acc =>
    if isWordChar c then some ([], .word (c :: acc))
    else (ofWord? acc.reverse).bind fun t => (start? c).map fun r => (t :: r.1, r.2)
  | .text acc =>
    if c = '"' then some ([JsonToken.text (String.ofList acc.reverse)], .between)
    else if c = '\\' then some ([], .escape acc)
    else if c.toNat < 0x20 then none
    else some ([], .text (c :: acc))
  | .escape acc =>
    if c = 'u' then some ([], .code acc none 4 0)
    else (unescape? c).map fun d => ([], .text (d :: acc))
  | .code acc high owed value => (Text.hexValue? c).bind fun d =>
    let value := value * 16 + d
    if owed ≤ 1 then (endCode? acc high value).map fun p => ([], p)
    else some ([], .code acc high (owed - 1) value)
  | .half acc high slash =>
    if !slash then (if c = '\\' then some ([], .half acc high true) else none)
    else if c = 'u' then some ([], .code acc (some high) 4 0) else none

def tokensFrom? (p : Partial) : List Char → Option (List JsonToken)
  | [] => match p with
    | .between => some []
    | .word acc => (ofWord? acc.reverse).map fun t => [t]
    | _ => none
  | c :: cs => (step? p c).bind fun r => (tokensFrom? r.2 cs).map (r.1 ++ ·)

def tokens? (cs : List Char) : Option (List JsonToken) := tokensFrom? .between cs

end JsonToken
end Restyle
