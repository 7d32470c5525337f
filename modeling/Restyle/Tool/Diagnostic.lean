import Restyle.File.Path
import Restyle.Text.Blank
import Restyle.Text.Number
import Restyle.Text.Word

/-! # Diagnostics

The tool reports a fault of a configuration as `file:line:column: severity: message`, where the file
starts with a slash or with a drive letter and a colon.  No part of this form can end early and
still be followed by what must come next, so it is read from left to right without going back.
-/
namespace Restyle

/-- A diagnostic as it is written; numbers are kept as digits of any script. -/
structure Diagnostic where
  file : List Char
  line : List Char
  column : List Char
  severity : List Char
  /-- What follows the last colon on the line of the first character that is no blank. -/
  message : List Char
deriving Repr, DecidableEq

namespace Diagnostic

def isFileChar (c : Char) : Bool :=
  !(c == '<' || c == '>' || c == '|' || c == '?' || c == '*' || c == ':' || c == '\t')

def fileStart? : List Char → Option (List Char × List Char)
  | '/' :: cs => some (['/'], cs)
  | c :: ':' :: cs => if Text.isAsciiLetter c then some ([c, ':'], cs) else none
  | _ => none

def field? (kind : Char → Bool) (cs : List Char) : Option (List Char × List Char) :=
  match cs.takeWhile kind, cs.dropWhile kind with
  | c :: found, ':' :: rest => some (c :: found, rest)
  | _, _ => none

/-- Reads the second number, which blanks may separate from its colon. -/
def column? (cs : List Char) : Option (List Char × List Char) :=
  match cs.takeWhile Text.isDigit, (cs.dropWhile Text.isDigit).dropWhile Text.isBlank with
  | c :: found, ':' :: rest => some (c :: found, rest)
  | _, _ => none

def atFront? (cs : List Char) : Option (Diagnostic × List Char) := do
  let (start, cs) ← fileStart? cs
  let (name, cs) ← field? isFileChar cs
  let (line, cs) ← field? Text.isDigit cs
  let (column, cs) ← column? cs
  let (severity, cs) ← field? Text.isWord (cs.dropWhile Text.isBlank)
  let cs := cs.dropWhile Text.isBlank
  return (⟨start ++ name, line, column, severity, cs.takeWhile (· ≠ '\n')⟩, cs.dropWhile (· ≠ '\n'))

def first? : List Char → Option (Diagnostic × List Char)
  | [] => none
  | c :: cs => match atFront? (c :: cs) with
    | some found => some found
    | none => first? cs

/-- A number from 1 to the largest word. -/
def positive? (digits : List Char) : Option Nat :=
  match Text.readWord digits with
  | .ok n => if n = 0 then none else some n
  | .error _ => none

end Diagnostic
end Restyle
