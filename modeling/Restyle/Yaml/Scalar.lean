import Restyle.Decimal.Notation
import Restyle.Text.Number

/-! # Scalars

A plain scalar is typed by its text: null, a truth value, a whole number, a decimal number, or else
a string.  A tag of the core schema asks for one of these types.
-/
namespace Restyle.Yaml

/-- A number: whole numbers of 64 bits, signed or not, and binary floating point numbers. -/
inductive Number where
  | whole (n : Int)
  | real (negative : Bool) (magnitude : Decimal.Binary)
  | infinite (negative : Bool)
  | notANumber
deriving Repr, DecidableEq

namespace Number

def text : Number → String
  | whole n => toString n
  | real negative m => String.ofList (if negative then '-' :: m.text else m.text)
  | infinite negative => if negative then "-.inf" else ".inf"
  | notANumber => ".nan"

/-- Whether two numbers count as one key.  The two zeros do. -/
def same : Number → Number → Bool
  | real n a, real m b => (a.mantissa = 0 ∧ b.mantissa = 0) || (n = m ∧ a = b)
  | a, b => a = b

end Number

inductive Scalar where
  | null
  | bool (b : Bool)
  | number (n : Number)
  | string (s : String)
deriving Repr, DecidableEq

def startsSigned : List Char → Bool
  | '+' :: _ => true
  | '-' :: _ => true
  | _ => false

/-- Decimal digits with a superfluous zero in front, after an optional sign. -/
def isPadded (cs : List Char) : Bool :=
  match (if startsSigned cs then cs.drop 1 else cs) with
  | '0' :: d :: ds => (d :: ds).all Char.isDigit
  | _ => false

def digits? (base : Nat) (cs : List Char) : Option Nat :=
  if cs.isEmpty then none
  else cs.foldlM (fun n c => (Text.hexValue? c).bind fun d =>
    if d < base then some (n * base + d) else none) 0

def based? : List Char → Option (Nat × List Char)
  | '0' :: 'x' :: cs => some (16, cs)
  | '0' :: 'o' :: cs => some (8, cs)
  | '0' :: 'b' :: cs => some (2, cs)
  | _ => none

def whole? (cs : List Char) : Option Int :=
  let (negative, body) := match cs with
    | '-' :: rest => (true, rest)
    | '+' :: rest => (false, rest)
    | rest => (false, rest)
  let found := match based? body with
    | some (base, digits) => digits? base digits
    | none => if isPadded cs then none else digits? 10 body
  found.map fun n => if negative then -n else n

inductive Reach where
  | word
  | double
  | beyond
deriving Repr, DecidableEq

/-- The reach of a whole number; negative numbers lose one bit to the sign. -/
def reach (n : Int) : Reach :=
  if -(Nat.pow 2 63) ≤ n ∧ n < Nat.pow 2 64 then .word
  else if -(Nat.pow 2 127) ≤ n ∧ n < Nat.pow 2 128 then .double
  else .beyond

def real? (cs : List Char) : Option Number :=
  let s := String.ofList cs
  let unsigned := match cs with
    | '+' :: rest => rest
    | rest => rest
  if cs.head? = some '+' && startsSigned unsigned then none
  else if [".inf", ".Inf", ".INF"].contains (String.ofList unsigned) then some (.infinite false)
  else if ["-.inf", "-.Inf", "-.INF"].contains s then some (.infinite true)
  else if [".nan", ".NaN", ".NAN"].contains s then some .notANumber
  else
    let (negative, body) := match unsigned with
      | '-' :: rest => (true, rest)
      | rest => (false, rest)
    ((Decimal.Written.read? body).bind Decimal.Written.nearest?).map (Number.real negative)

def bool? (s : String) : Option Bool :=
  if ["true", "True", "TRUE"].contains s then some true
  else if ["false", "False", "FALSE"].contains s then some false
  else none

def isNullWord (s : String) : Bool := ["null", "Null", "NULL", "~"].contains s

/-- The meaning of a plain text.  A whole number of more than 64 but at most 128 bits is a fault. -/
def plainScalar (cs : List Char) : Option Scalar :=
  let s := String.ofList cs
  if cs.isEmpty || isNullWord s then some .null
  else match bool? s with
    | some b => some (.bool b)
    | none =>
      let other := if isPadded cs then .string s else match real? cs with
        | some x => .number x
        | none => .string s
      match whole? cs with
      | none => some other
      | some n => match reach n with
        | .word => some (.number (.whole n))
        | .double => none
        | .beyond => some other

def coreTag (name : String) : List Char := ("tag:yaml.org,2002:" ++ name).toList

/-- The meaning of a text under an optional tag.  A tag that starts with an exclamation mark leaves
a plain text to its own type; other unknown tags make strings. -/
def scalarUnder (tag : Option (List Char)) (cs : List Char) (plain : Bool) : Option Scalar :=
  let s := String.ofList cs
  match tag with
  | none => if plain then plainScalar cs else some (.string s)
  | some tag =>
    if tag = coreTag "bool" then (bool? s).map .bool
    else if tag = coreTag "int" then (whole? cs).bind fun n =>
      if reach n = .word then some (.number (.whole n)) else none
    else if tag = coreTag "float" then (real? cs).map .number
    else if tag = coreTag "null" then if isNullWord s then some .null else none
    else if tag.head? = some '!' ∧ plain then plainScalar cs
    else some (.string s)

end Restyle.Yaml
