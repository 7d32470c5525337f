import Restyle.Text.Number

/-! # Calculations in scripts

Sums of products of numbers and names.  Division cuts toward zero.
-/
namespace Restyle.Script

inductive SumToken where
  | number (n : Int)
  | sign (c : Char)
deriving Repr, DecidableEq

/-- Cuts a calculation into tokens; a dollar sign in front of a name may be left out.  `size` bounds
their number. -/
def sumTokens (valueOf : String → Int) (size : Nat) (cs : List Char) : List SumToken :=
  match size, cs with
  | 0, _ | _, [] => []
  | n + 1, c :: rest =>
    if c.isDigit then
      let digits := cs.takeWhile Char.isDigit
      .number ((String.ofList digits).toNat?.getD 0) :: sumTokens valueOf n (cs.drop digits.length)
    else if c.isAlpha || c == '_' then
      let name := cs.takeWhile fun c => c.isAlphanum || c == '_'
      .number (valueOf (String.ofList name)) :: sumTokens valueOf n (cs.drop name.length)
    else if c == '$' || c == ' ' then sumTokens valueOf n rest
    else .sign c :: sumTokens valueOf n rest

def strength? (c : Char) : Option Nat :=
  match c with
  | '+' | '-' => some 1
  | '*' | '/' | '%' => some 2
  | _ => none

def combine (c : Char) (a b : Int) : Int :=
  match c with
  | '+' => a + b
  | '-' => a - b
  | '*' => a * b
  | '/' => a.tdiv b
  | _ => a.tmod b

mutual

def readTerm (fuel : Nat) (ts : List SumToken) : Int × List SumToken :=
  match fuel, ts with
  | n + 1, .sign '-' :: ts =>
    let (a, ts) := readTerm n ts
    (-a, ts)
  | n + 1, .sign '(' :: ts =>
    let (a, ts) := readTerm n ts
    let (a, ts) := readRest n 1 a ts
    (a, ts.drop 1)
  | _, .number a :: ts => (a, ts)
  | _, ts => (0, ts)

/-- Reads what follows a number as long as its signs bind at least so strongly. -/
def readRest (fuel least : Nat) (a : Int) (ts : List SumToken) : Int × List SumToken :=
  match fuel, ts with
  | n + 1, .sign c :: rest => match strength? c with
    | some s =>
      if least ≤ s then
        let (b, rest) := readTerm n rest
        let (b, rest) := readRest n (s + 1) b rest
        readRest n least (combine c a b) rest
      else (a, ts)
    | none => (a, ts)
  | _, ts => (a, ts)

end

def calculate (valueOf : String → Int) (text : String) : Int :=
  let ts := sumTokens valueOf (text.length + 1) text.toList
  let (a, rest) := readTerm (2 * ts.length + 2) ts
  (readRest (2 * ts.length + 2) 1 a rest).1

end Restyle.Script
