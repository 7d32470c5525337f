/-! # Places and character classes of YAML

A place counts characters, lines and columns.  A carriage return and the line feed after it are one
line break.
-/
namespace Restyle.Yaml

structure Place where
  index : Nat := 0
  line : Nat := 0
  column : Nat := 0
deriving Repr, DecidableEq, Inhabited

def isBreak (c : Char) : Bool :=
  c == '\n' || c == '\r' || c == '\x85' || c == '\u2028' || c == '\u2029'

def isBlank (c : Char) : Bool := c == ' ' || c == '\t'

def isNameChar (c : Char) : Bool := c.isAlphanum || c == '_' || c == '-'

/-- The text is over, or a blank or a line break comes next. -/
def atGap : List Char → Bool
  | [] => true
  | c :: _ => isBlank c || isBreak c

def isAllowed (c : Char) : Bool :=
  let n := c.toNat
  n == 0x09 || n == 0x0A || n == 0x0D || (0x20 ≤ n && n ≤ 0x7E) || n == 0x85 ||
  (0xA0 ≤ n && n ≤ 0xD7FF) || (0xE000 ≤ n && n ≤ 0xFFFD) || 0x10000 ≤ n

def Place.advance (p : Place) : List Char → Place
  | [] => p
  | ['\r'] => ⟨p.index + 1, p.line + 1, 0⟩
  | '\r' :: '\n' :: cs => Place.advance ⟨p.index + 2, p.line + 1, 0⟩ cs
  | c :: cs =>
    Place.advance (if isBreak c then ⟨p.index + 1, p.line + 1, 0⟩
      else ⟨p.index + 1, p.line, p.column + 1⟩) cs

def lineBreak? : List Char → Option (Char × List Char)
  | '\r' :: '\n' :: cs => some ('\n', cs)
  | c :: cs =>
    if isBreak c then some (if c == '\u2028' || c == '\u2029' then c else '\n', cs) else none
  | [] => none

/-- Three marks of a kind at the start of a line, followed by a gap, delimit documents. -/
def atDocumentMark (column : Nat) (cs : List Char) : Bool :=
  column == 0 && match cs with
    | '-' :: '-' :: '-' :: rest => atGap rest
    | '.' :: '.' :: '.' :: rest => atGap rest
    | _ => false

end Restyle.Yaml
