/-! # JSON values and their text

Members of an object keep their order.  One printer writes both layouts: the narrow one without any
space, the wide one with two spaces per level; empty containers take no line of their own.
-/
namespace Restyle

/-- A JSON value.  A number that is no whole number is kept as it is written. -/
inductive JsonValue where
  | null
  | bool (b : Bool)
  | whole (n : Int)
  | fraction (literal : String)
  | text (s : String)
  | items (vs : List JsonValue)
  | members (ms : List (String × JsonValue))
deriving Inhabited

namespace JsonValue

def hexDigit (n : Nat) : Char := Char.ofNat (if n < 10 then 0x30 + n else 0x57 + n)

def escapeChar (c : Char) : List Char :=
  if c = '"' then ['\\', '"']
  else if c = '\\' then ['\\', '\\']
  else if c = '\n' then ['\\', 'n']
  else if c = '\r' then ['\\', 'r']
  else if c = '\t' then ['\\', 't']
  else if c = '\x08' then ['\\', 'b']
  else if c = '\x0C' then ['\\', 'f']
  else if c.toNat < 0x20 then ['\\', 'u', '0', '0', hexDigit (c.toNat / 16), hexDigit (c.toNat % 16)]
  else [c]

def quoted (s : String) : List Char := '"' :: (s.toList.flatMap escapeChar ++ ['"'])

/-- What stands in front of an entry at a depth: in the wide layout a new line and its indentation. -/
def gap (wide : Bool) (depth : Nat) : List Char :=
  if wide then '\n' :: List.replicate (2 * depth) ' ' else []

def colon (wide : Bool) : List Char := if wide then [':', ' '] else [':']

mutual

def print (wide : Bool) (depth : Nat) : JsonValue → List Char
  | null => ['n', 'u', 'l', 'l']
  | bool true => ['t', 'r', 'u', 'e']
  | bool false => ['f', 'a', 'l', 's', 'e']
  | whole n => (toString n).toList
  | fraction literal => literal.toList
  | text s => quoted s
  | items [] => ['[', ']']
  | items (v :: vs) =>
    '[' :: (gap wide (depth + 1) ++ print wide (depth + 1) v ++ printItems wide (depth + 1) vs ++
      gap wide depth ++ [']'])
  | members [] => ['\x7b', '\x7d']
  | members ((k, v) :: ms) =>
    '\x7b' :: (gap wide (depth + 1) ++ quoted k ++ colon wide ++ print wide (depth + 1) v ++
      printMembers wide (depth + 1) ms ++ gap wide depth ++ ['\x7d'])

def printItems (wide : Bool) (depth : Nat) : List JsonValue → List Char
  | [] => []
  | v :: vs => ',' :: (gap wide depth ++ print wide depth v ++ printItems wide depth vs)

def printMembers (wide : Bool) (depth : Nat) : List (String × JsonValue) → List Char
  | [] => []
  | (k, v) :: ms =>
    ',' :: (gap wide depth ++ quoted k ++ colon wide ++ print wide depth v ++
      printMembers wide depth ms)

end

def compact (v : JsonValue) : String := String.ofList (print false 0 v)

def pretty (v : JsonValue) : String := String.ofList (print true 0 v)

end JsonValue
end Restyle
