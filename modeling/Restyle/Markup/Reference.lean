import Restyle.Text.Number

/-! # References in markup

Characters that markup reserves are written as references.  `escape` writes those that the
replacement listing needs; `unescape` reads the five named references and numeric ones, and refuses
every other ampersand.
-/
namespace Restyle.Markup

def escapeChar (c : Char) : List Char :=
  if c == '&' then "&amp;".toList
  else if c == '<' then "&lt;".toList
  else if c == '>' then "&gt;".toList
  else if c == '\x27' then "&apos;".toList
  else if c == '"' then "&quot;".toList
  else if c == '\n' then "&#10;".toList
  else if c == '\r' then "&#13;".toList
  else [c]

def escape (cs : List Char) : List Char := cs.flatMap escapeChar

def codeOf? (base : Nat) (digit? : Char → Option Nat) (cs : List Char) : Option Nat :=
  cs.foldlM (fun acc c => (digit? c).map (acc * base + ·)) 0

/-- The character with a code point, which is neither zero nor a surrogate. -/
def charOf? (n : Nat) : Option Char :=
  if n ≠ 0 ∧ n.isValidChar then some (Char.ofNat n) else none

def resolve? (name : List Char) : Option Char :=
  match name with
  | '#' :: 'x' :: digits =>
    if digits.isEmpty then none else (codeOf? 16 Text.hexValue? digits).bind charOf?
  | '#' :: digits =>
    if digits.isEmpty then none else (codeOf? 10 Text.digitValue? digits).bind charOf?
  | ['l', 't'] => some '<'
  | ['g', 't'] => some '>'
  | ['a', 'm', 'p'] => some '&'
  | ['a', 'p', 'o', 's'] => some '\x27'
  | ['q', 'u', 'o', 't'] => some '"'
  | _ => none

/-- Reads a text; `name?` holds the characters, latest first, of a reference that is open. -/
def unescapeFrom (name? : Option (List Char)) : List Char → Option (List Char)
  | [] => if name?.isNone then some [] else none
  | c :: cs => match name? with
    | none =>
      if c = '&' then unescapeFrom (some []) cs else (unescapeFrom none cs).map (c :: ·)
    | some name =>
      if c = ';' then (resolve? name.reverse).bind fun r => (unescapeFrom none cs).map (r :: ·)
      else if c = '&' then none
      else unescapeFrom (some (c :: name)) cs

def unescape (cs : List Char) : Option (List Char) := unescapeFrom none cs

end Restyle.Markup
