import Restyle.Text.Number
import Restyle.Text.Utf8

/-! # Printing commands

The escapes and directives that `echo` and `printf` know.  What they print is bytes, since an escape
may stand for any byte.
-/
namespace Restyle.Printing

def letter? (c : Char) : Option UInt8 :=
  match c with
  | 'a' => some 7
  | 'b' => some 8
  | 'e' => some 27
  | 'f' => some 12
  | 'n' => some 10
  | 'r' => some 13
  | 't' => some 9
  | 'v' => some 11
  | '\\' => some 92
  | _ => none

def isOctal (c : Char) : Bool := '0' ≤ c && c ≤ '7'

def digits (base : Nat) (cs : List Char) : Nat :=
  cs.foldl (fun n c => n * base + (Text.hexValue? c).getD 0) 0

structure Escapes where
  /-- A leading zero counts apart from three octal digits. -/
  zero : Bool := false
  hex : Bool := false
deriving Repr, DecidableEq

/-- Reads what follows a backslash: the bytes that it stands for, and how many characters it has.
None ends the output. -/
def readEscape (e : Escapes) : List Char → Option (List UInt8 × Nat)
  | 'c' :: _ => none
  | 'x' :: cs =>
    let found := (cs.take 2).takeWhile fun c => (Text.hexValue? c).isSome
    if found.isEmpty || !e.hex then some (Utf8.encode "\\x", 1)
    else some ([(digits 16 found).toUInt8], found.length + 1)
  | c :: cs =>
    if isOctal c then
      let most := if e.zero && c == '0' then 4 else 3
      let found := ((c :: cs).take most).takeWhile isOctal
      some ([(digits 8 found).toUInt8], found.length)
    else match letter? c with
      | some b => some ([b], 1)
      | none => some (Utf8.encode (String.ofList ['\\', c]), 1)
  | [] => some ([92], 0)

/-- The bytes of a text with escapes, and whether an escape has ended the output.  `skip` characters
belong to an escape that was read already. -/
def expand (e : Escapes) (skip : Nat) : List Char → List UInt8 × Bool
  | [] => ([], false)
  | c :: cs => match skip with
    | n + 1 => expand e n cs
    | 0 =>
      if c = '\\' then match readEscape e cs with
        | none => ([], true)
        | some (bytes, size) =>
          let (rest, ended) := expand e size cs
          (bytes ++ rest, ended)
      else
        let (rest, ended) := expand e 0 cs
        (Utf8.encode (String.singleton c) ++ rest, ended)

def echo (words : List String) : List UInt8 :=
  let (words, ending) : List String × List UInt8 := match words with
    | "-n" :: rest => (rest, [])
    | _ => (words, [10])
  let (bytes, ended) := expand { zero := true } 0 (" ".intercalate words).toList
  if ended then bytes else bytes ++ ending

def plainEcho (escapes newline : Bool) : List String → List UInt8
  | "-n" :: rest => plainEcho escapes false rest
  | "-e" :: rest => plainEcho true newline rest
  | "-E" :: rest => plainEcho false newline rest
  | words =>
    let text := " ".intercalate words
    let (bytes, ended) := if escapes then expand ⟨true, true⟩ 0 text.toList else (Utf8.encode text, false)
    if newline && !ended then bytes ++ [10] else bytes

structure Directive where
  left : Bool := false
  zeros : Bool := false
  width : Nat := 0
  places : Option Nat := none
deriving Repr, DecidableEq

namespace Directive

def pad (d : Directive) (bytes : List UInt8) : List UInt8 :=
  let missing := d.width - bytes.length
  if d.left then bytes ++ List.replicate missing 32
  else List.replicate missing (if d.zeros then 48 else 32) ++ bytes

def read (cs : List Char) : Directive × List Char :=
  let flags := cs.takeWhile fun c => c == '-' || c == '0' || c == ' ' || c == '+'
  let cs := cs.drop flags.length
  let width := cs.takeWhile Char.isDigit
  let cs := cs.drop width.length
  let d : Directive := ⟨flags.contains '-', flags.contains '0', digits 10 width, none⟩
  match cs with
  | '.' :: cs =>
    let places := cs.takeWhile Char.isDigit
    ({ d with places := some (digits 10 places) }, cs.drop places.length)
  | cs => (d, cs)

end Directive

def integer (arg : String) : Int :=
  match arg.toList with
  | '\x27' :: c :: _ => c.toNat
  | '0' :: 'x' :: cs => digits 16 cs
  | _ => arg.toInt?.getD 0

def Directive.print (d : Directive) (kind : Char) (arg : String) : List UInt8 × Bool :=
  let text := fun (s : String) => (d.pad (Utf8.encode s), false)
  let cut := fun (bytes : List UInt8) => match d.places with
    | some n => bytes.take n
    | none => bytes
  match kind with
  | 's' => (d.pad (cut (Utf8.encode arg)), false)
  | 'b' =>
    let (bytes, ended) := expand ⟨true, true⟩ 0 arg.toList
    (d.pad (cut bytes), ended)
  | 'c' => (d.pad ((Utf8.encode arg).take 1), false)
  | 'x' => text (String.ofList (Nat.toDigits 16 (integer arg).toNat))
  | 'o' => text (String.ofList (Nat.toDigits 8 (integer arg).toNat))
  | _ => text (toString (integer arg))

/-- Prints a format once: the bytes, the arguments that are left, and whether the output has ended.
`skip` characters belong to something that was read already. -/
def printOnce (e : Escapes) (skip : Nat) (args : List String) : List Char → List UInt8 × List String × Bool
  | [] => ([], args, false)
  | c :: cs => match skip with
    | n + 1 => printOnce e n args cs
    | 0 =>
      let found : Option (List UInt8 × List String × Nat) :=
        if c = '\\' then (readEscape e cs).map fun found => (found.1, args, found.2)
        else if c = '%' then match cs with
          | '%' :: _ => some ([37], args, 1)
          | _ =>
            let (d, rest) := Directive.read cs
            match rest with
            | [] => some ([37], args, 0)
            | kind :: rest => match d.print kind (args.headD "") with
              | (bytes, false) => some (bytes, args.drop 1, cs.length - rest.length)
              | (_, true) => none
        else some (Utf8.encode (String.singleton c), args, 0)
      match found with
      | none => ([], args, true)
      | some (bytes, args, size) =>
        let (rest, args, ended) := printOnce e size args cs
        (bytes ++ rest, args, ended)

/-- Prints a format as often as there are arguments for it; `rounds` bounds how often that is. -/
def format (e : Escapes) (rounds : Nat) (pattern : List Char) (args : List String) : List UInt8 :=
  match rounds with
  | 0 => []
  | n + 1 =>
    let (bytes, rest, ended) := printOnce e 0 args pattern
    if ended || rest.isEmpty || rest.length = args.length then bytes
    else bytes ++ format e n pattern rest

def printf (e : Escapes) (words : List String) : List UInt8 :=
  match words with
  | [] => []
  | pattern :: args => format e (args.length + 1) pattern.toList args

end Restyle.Printing
