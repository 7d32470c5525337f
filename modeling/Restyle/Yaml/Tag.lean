import Restyle.Text.Utf8
import Restyle.Yaml.Text

/-! # Anchors, tags and directives

The short names that precede a node, and the lines that precede a document.
-/
namespace Restyle.Yaml

def endsAnchor : List Char → Bool
  | [] => true
  | c :: _ =>
    isBlank c || isBreak c || c == '?' || c == ':' || c == ',' || c == ']' || c == '}' ||
      c == '%' || c == '@' || c == '\x60'

def readAnchor (cs : List Char) : Option (List Char × List Char) :=
  let name := cs.takeWhile isNameChar
  let rest := cs.dropWhile isNameChar
  if name.isEmpty || !endsAnchor rest then none else some (name, rest)

/-- Characters that a tag may hold without escapes; `verbatim` tags may hold three more. -/
def isTagChar (verbatim : Bool) (c : Char) : Bool :=
  isNameChar c || ";/?:@&=+$.!~*()".toList.contains c || c == '\x27' ||
    (verbatim && (c == ',' || c == '[' || c == ']'))

def octetWidth? (b : Nat) : Option Nat :=
  if b < 0x80 then some 1
  else if 0xC0 ≤ b ∧ b < 0xE0 then some 2
  else if 0xE0 ≤ b ∧ b < 0xF0 then some 3
  else if 0xF0 ≤ b ∧ b < 0xF8 then some 4
  else none

/-- Reads the text of a tag.  `octets` holds escaped bytes, latest first, and `owed` how many more
belong to their character. -/
def readTagText (verbatim : Bool) (acc : List Char) (octets : List UInt8) (owed : Nat) :
    List Char → Option (List Char × List Char)
  | '%' :: a :: b :: cs => do
    let octet := (← Text.hexValue? a) * 16 + (← Text.hexValue? b)
    let more ← if owed = 0 then (octetWidth? octet).map (· - 1)
      else if 0x80 ≤ octet ∧ octet < 0xC0 then some (owed - 1) else none
    let octets := octet.toUInt8 :: octets
    if more = 0 then
      readTagText verbatim ((Utf8.decodeLossy octets.reverse).reverse ++ acc) [] 0 cs
    else readTagText verbatim acc octets more cs
  | c :: cs =>
    if 0 < owed ∨ c = '%' then none
    else if isTagChar verbatim c then readTagText verbatim (c :: acc) [] 0 cs
    else some (acc.reverse, c :: cs)
  | [] => if 0 < owed then none else some (acc.reverse, [])

def readHandle (cs : List Char) : Option (List Char × List Char) :=
  match cs with
  | '!' :: rest =>
    let name := rest.takeWhile isNameChar
    match rest.dropWhile isNameChar with
    | '!' :: rest => some ('!' :: name ++ ['!'], rest)
    | rest => some ('!' :: name, rest)
  | _ => none

/-- Reads a tag as handle and suffix.  Without a handle the suffix is the whole tag. -/
def readTag (inFlow : Bool) (cs : List Char) : Option ((List Char × List Char) × List Char) := do
  let (tag, rest) ← match cs with
    | '!' :: '<' :: body => do
      let (text, rest) ← readTagText true [] [] 0 body
      if text.isEmpty then none
      match rest with
      | '>' :: rest => some ((([] : List Char), text), rest)
      | _ => none
    | _ => do
      let (handle, rest) ← readHandle cs
      if 1 < handle.length ∧ handle.getLast? = some '!' then
        let (text, rest) ← readTagText false [] [] 0 rest
        if text.isEmpty then none
        some ((handle, text), rest)
      else
        let (text, rest) ← readTagText false (handle.drop 1).reverse [] 0 rest
        if text.isEmpty then some (([], ['!']), rest) else some ((['!'], text), rest)
  if atGap rest || (inFlow && rest.head? == some ',') then return (tag, rest) else none

inductive Directive where
  | version (major minor : Nat)
  | tag (handle stem : List Char)
deriving Repr, DecidableEq

def readVersionPart (cs : List Char) : Option (Nat × List Char) :=
  let digits := cs.takeWhile Char.isDigit
  if digits.isEmpty ∨ 9 < digits.length then none
  else some (digits.foldl (fun n c => n * 10 + (c.toNat - '0'.toNat)) 0, cs.dropWhile Char.isDigit)

def readDirective (cs : List Char) : Option (Directive × List Char) := do
  let name := cs.takeWhile isNameChar
  let rest := cs.dropWhile isNameChar
  if name.isEmpty || !atGap rest then none
  let (directive, rest) ←
    if name = "YAML".toList then do
      let (major, rest) ← readVersionPart (rest.dropWhile isBlank)
      match rest with
      | '.' :: rest => do
        let (minor, rest) ← readVersionPart rest
        some (Directive.version major minor, rest)
      | _ => none
    else if name = "TAG".toList then do
      let (handle, rest) ← readHandle (rest.dropWhile isBlank)
      if handle ≠ ['!'] ∧ (handle.length < 2 ∨ handle.getLast? ≠ some '!') then none
      if !(rest.head?.any isBlank) then none
      let (stem, rest) ← readTagText true [] [] 0 (rest.dropWhile isBlank)
      if stem.isEmpty || !atGap rest then none
      some (Directive.tag handle stem, rest)
    else none
  let rest := rest.dropWhile isBlank
  let rest := if rest.head? = some '#' then rest.dropWhile (!isBreak ·) else rest
  match rest, lineBreak? rest with
  | [], _ => return (directive, [])
  | _, some (_, rest) => return (directive, rest)
  | _, none => none

end Restyle.Yaml
