/-! # Words of a script

A script is cut into words and signs.  A word is made of parts, some of which stand for something else
and are replaced when the script runs.
-/
namespace Restyle.Script

inductive PartKind where
  | text
  | value
  | sum
  | output
deriving Repr, DecidableEq

/-- A part of a word.  Quoted parts are never cut at blanks. -/
structure Part where
  kind : PartKind
  text : String
  quoted : Bool
deriving Repr, DecidableEq

inductive Piece where
  | word (parts : List Part)
  | sign (text : String)
  | direct (stream : Nat) (text : String)
deriving Repr, DecidableEq

inductive Fault where
  | unterminatedQuote
  | unterminatedName
  /-- The script ends though something else is needed, which may be known. -/
  | unexpectedEnd (needed : Option String)
  | unexpected (text : String)
deriving Repr, DecidableEq

def Fault.message : Fault → String
  | unterminatedQuote => "Unterminated quoted string"
  | unterminatedName => "Missing '\x7d'"
  | unexpectedEnd none => "end of file unexpected"
  | unexpectedEnd (some needed) => s!"end of file unexpected (expecting \"{needed}\")"
  | unexpected text => s!"\"{text}\" unexpected"

def isNameChar (c : Char) : Bool := c.isAlphanum || c == '_'

def readClosed (depth : Nat) : List Char → Option (List Char × List Char)
  | [] => none
  | ')' :: cs => match depth with
    | 0 => some ([], cs)
    | d + 1 => (readClosed d cs).map fun r => (')' :: r.1, r.2)
  | '(' :: cs => (readClosed (depth + 1) cs).map fun r => ('(' :: r.1, r.2)
  | c :: cs => (readClosed depth cs).map fun r => (c :: r.1, r.2)

def readValue (quoted : Bool) (cs : List Char) : Except Fault (Part × List Char) :=
  match cs with
  | '(' :: '(' :: rest => match readClosed 0 rest with
    | some (inner, ')' :: rest) => .ok (⟨.sum, String.ofList inner, quoted⟩, rest)
    | _ => .error (.unexpectedEnd (some "))"))
  | '(' :: rest => match readClosed 0 rest with
    | some (inner, rest) => .ok (⟨.output, String.ofList inner, quoted⟩, rest)
    | none => .error (.unexpectedEnd (some ")"))
  | '{' :: rest =>
    let name := rest.takeWhile (· ≠ '}')
    match rest.drop name.length with
    | _ :: rest => .ok (⟨.value, String.ofList name, quoted⟩, rest)
    | [] => .error .unterminatedName
  | c :: rest =>
    if ['$', '?', '#', '@', '*', '!'].contains c || c.isDigit then
      .ok (⟨.value, String.singleton c, quoted⟩, rest)
    else if isNameChar c then
      let name := cs.takeWhile isNameChar
      .ok (⟨.value, String.ofList name, quoted⟩, cs.drop name.length)
    else .ok (⟨.text, "$", quoted⟩, cs)
  | [] => .ok (⟨.text, "$", quoted⟩, [])

def plainPart (quoted : Bool) (cs : List Char) : Part := ⟨.text, String.ofList cs, quoted⟩

/-- Reads up to the double quote that closes an open one; `size` bounds the number of parts. -/
def readDouble (size : Nat) (cs : List Char) : Except Fault (List Part × List Char) :=
  match size with
  | 0 => .error .unterminatedQuote
  | n + 1 => match cs with
    | [] => .error .unterminatedQuote
    | '"' :: rest => .ok ([], rest)
    | '\\' :: c :: rest => do
      let kept := if ['$', '"', '\\', '\x60'].contains c then [c] else if c = '\n' then [] else ['\\', c]
      let (parts, rest) ← readDouble n rest
      return (plainPart true kept :: parts, rest)
    | '$' :: rest => do
      let (part, rest) ← readValue true rest
      let (parts, rest) ← readDouble n rest
      return (part :: parts, rest)
    | c :: rest => do
      let (parts, rest) ← readDouble n rest
      return (plainPart true [c] :: parts, rest)

def endsWord (c : Char) : Bool := [' ', '\t', '\n', ';', '&', '|', '<', '>', '(', ')'].contains c

/-- Reads a word; `size` bounds the number of parts. -/
def readWord (size : Nat) (cs : List Char) : Except Fault (List Part × List Char) :=
  match size with
  | 0 => .ok ([], cs)
  | n + 1 => match cs with
    | [] => .ok ([], [])
    | '\x27' :: rest => do
      let inner := rest.takeWhile (· ≠ '\x27')
      match rest.drop inner.length with
      | [] => throw .unterminatedQuote
      | _ :: rest =>
        let (parts, rest) ← readWord n rest
        return (plainPart true inner :: parts, rest)
    | '"' :: rest => do
      let (inner, rest) ← readDouble (rest.length + 1) rest
      let (parts, rest) ← readWord n rest
      return (plainPart true [] :: inner ++ parts, rest)
    | '\\' :: c :: rest => do
      let (parts, rest) ← readWord n rest
      return (plainPart true (if c = '\n' then [] else [c]) :: parts, rest)
    | '$' :: rest => do
      let (part, rest) ← readValue false rest
      let (parts, rest) ← readWord n rest
      return (part :: parts, rest)
    | c :: rest =>
      if endsWord c then .ok ([], cs)
      else do
        let (parts, rest) ← readWord n rest
        return (plainPart false [c] :: parts, rest)

/-- The signs of a script, longer ones before those that they start with. -/
def signs : List String := ["&&", "||", ";", "&", "|", "(", ")", "\n"]

def directions : List String := [">>", ">&", "<&", ">", "<"]

def startOf? (texts : List String) (cs : List Char) : Option String :=
  texts.find? fun t => t.toList.isPrefixOf cs

def plainText? (parts : List Part) : Option String :=
  if parts.all fun p => p.kind = .text && !p.quoted then some (String.join (parts.map (·.text))) else none

/-- Cuts a script into pieces with the numbers of their lines; `size` bounds the number of pieces. -/
def pieces (size line : Nat) (cs : List Char) : Except Fault (List (Nat × Piece)) :=
  match size with
  | 0 => .ok []
  | n + 1 => match cs with
    | [] => .ok []
    | ' ' :: rest | '\t' :: rest => pieces n line rest
    | '#' :: rest => pieces n line (rest.dropWhile (· ≠ '\n'))
    | cs =>
      match startOf? directions cs with
      | some sign => do
        let stream := if sign.startsWith "<" then 0 else 1
        return (line, .direct stream sign) :: (← pieces n line (cs.drop sign.length))
      | none => match startOf? signs cs with
        | some sign => do
          let next := if sign = "\n" then line + 1 else line
          return (line, .sign sign) :: (← pieces n next (cs.drop sign.length))
        | none => do
          let (parts, rest) ← readWord (cs.length + 1) cs
          let lines := line + (cs.take (cs.length - rest.length)).count '\n'
          match (plainText? parts).bind String.toNat?, startOf? directions rest with
          | some stream, some sign =>
            return (line, .direct stream sign) :: (← pieces n lines (rest.drop sign.length))
          | _, _ => return (line, .word parts) :: (← pieces n lines rest)

end Restyle.Script
