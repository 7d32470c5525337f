import Restyle.Text.Printable

/-! # Quoted text

The form in which log lines and edit errors show a text: in double quotes, with the quote, the
backslash and all characters that have no visible form escaped.
-/
namespace Restyle.Text

def hexDigits (n : Nat) : List Char := Nat.toDigits 16 n

def quoteChar (c : Char) : List Char :=
  if c == '"' then ['\\', '"']
  else if c == '\\' then ['\\', '\\']
  else if c == '\n' then ['\\', 'n']
  else if c == '\r' then ['\\', 'r']
  else if c == '\t' then ['\\', 't']
  else if c.toNat == 0 then ['\\', '0']
  else if isPrintable c then [c]
  else ['\\', 'u', '\x7b'] ++ hexDigits c.toNat ++ ['\x7d']

def quote (s : String) : String :=
  String.ofList ('"' :: (s.toList.flatMap quoteChar ++ ['"']))

/-- A path in quotes; here a single quote is escaped as well. -/
def quotePath (s : String) : String :=
  String.ofList ('"' :: (s.toList.flatMap (fun c => if c == '\x27' then ['\\', c] else quoteChar c) ++ ['"']))

end Restyle.Text
