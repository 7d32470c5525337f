import Restyle.Text.Number
import Restyle.Yaml.Place

/-! # The three forms of scalar text

Quoted, plain and block scalars.  Each reader answers the text and what follows it, or nothing if
the form is broken.  Lines are folded: a single line break becomes a space, further ones stay.
-/
namespace Restyle.Yaml

/-- Blanks and line breaks between two pieces of a folded text.  Spaces count only before the first
break; lists are kept latest first. -/
structure Gap where
  broken : Bool := false
  spaces : List Char := []
  first : List Char := []
  further : List Char := []
deriving Repr, DecidableEq

namespace Gap

def isEmpty (g : Gap) : Bool := !g.broken && g.spaces.isEmpty

def blank (g : Gap) (c : Char) : Gap := if g.broken then g else { g with spaces := c :: g.spaces }

def lineBreak (g : Gap) (c : Char) : Gap :=
  if g.broken then { g with further := c :: g.further }
  else { g with broken := true, spaces := [], first := [c] }

/-- Puts the folded gap in front of a text that is kept latest first. -/
def onto (g : Gap) (acc : List Char) : List Char :=
  if g.broken then
    if g.first == ['\n'] then (if g.further.isEmpty then ' ' :: acc else g.further ++ acc)
    else g.further ++ (g.first ++ acc)
  else g.spaces ++ acc

end Gap

def shortEscape? (c : Char) : Option Char :=
  match c with
  | '0' => some '\x00'
  | 'a' => some '\x07'
  | 'b' => some '\x08'
  | 't' => some '\t'
  | '\t' => some '\t'
  | 'n' => some '\n'
  | 'v' => some '\x0B'
  | 'f' => some '\x0C'
  | 'r' => some '\r'
  | 'e' => some '\x1B'
  | ' ' => some ' '
  | '"' => some '"'
  | '/' => some '/'
  | '\\' => some '\\'
  | 'N' => some '\x85'
  | '_' => some '\xA0'
  | 'L' => some '\u2028'
  | 'P' => some '\u2029'
  | _ => none

def escapeDigits? (c : Char) : Option Nat :=
  match c with
  | 'x' => some 2
  | 'u' => some 4
  | 'U' => some 8
  | _ => none

def charOfHex? (digits : List Char) : Option Char :=
  (digits.foldlM (fun acc c => (Text.hexValue? c).map (acc * 16 + ·)) 0).bind fun n =>
    if n.isValidChar then some (Char.ofNat n) else none

/-- Reads a quoted text up to its closing quote.  `acc` is the text so far, latest first; `owed` is
the number of digits that a numeric escape still needs, and `code` holds those read, latest
first. -/
def readQuoted (quote : Char) (column : Nat) (acc : List Char) (gap : Gap) (owed : Nat)
    (code : List Char) : List Char → Option (List Char × List Char)
  | [] => none
  | c :: cs =>
    if 0 < owed then
      if owed = 1 then (charOfHex? (c :: code).reverse).bind fun ch =>
        readQuoted quote (column + 1) (ch :: acc) {} 0 [] cs
      else readQuoted quote (column + 1) acc {} (owed - 1) (c :: code) cs
    else if isBlank c then readQuoted quote (column + 1) acc (gap.blank c) 0 [] cs
    else if c = '\r' ∧ cs.head? = some '\n' then readQuoted quote column acc gap 0 [] cs
    else if isBreak c then
      let c := if c == '\u2028' || c == '\u2029' then c else '\n'
      readQuoted quote 0 acc (gap.lineBreak c) 0 [] cs
    else if atDocumentMark column (c :: cs) then none
    else
      let acc := gap.onto acc
      match cs with
      | d :: rest =>
        if c = quote then
          if quote = '\x27' ∧ d = '\x27' then readQuoted quote (column + 2) (c :: acc) {} 0 [] rest
          else some (acc.reverse, d :: rest)
        else if quote = '"' ∧ c = '\\' then
          if d = '\r' ∧ rest.head? = some '\n' then
            readQuoted quote 0 acc { broken := true } 0 [] (rest.drop 1)
          else if isBreak d then readQuoted quote 0 acc { broken := true } 0 [] rest
          else match shortEscape? d, escapeDigits? d with
            | some e, _ => readQuoted quote (column + 2) (e :: acc) {} 0 [] rest
            | none, some n => readQuoted quote (column + 2) acc {} n [] rest
            | none, none => none
        else readQuoted quote (column + 1) (c :: acc) {} 0 [] (d :: rest)
      | [] => if c = quote then some (acc.reverse, []) else none
termination_by cs => cs.length
decreasing_by all_goals (simp only [List.length_cons, List.length_drop]; omega)

structure Plain where
  text : List Char
  broken : Bool
  rest : List Char
deriving Repr, DecidableEq

def isFlowMark (c : Char) : Bool := c == ',' || c == '[' || c == ']' || c == '{' || c == '}'

/-- Reads a plain text.  In a block it must stay at or right of column `indent`. -/
def readPlain (inFlow : Bool) (indent : Nat) (column : Nat) (acc : List Char) (gap : Gap) :
    List Char → Option Plain
  | [] => some ⟨acc.reverse, gap.broken, []⟩
  | c :: cs =>
    if isBlank c then
      if gap.broken ∧ column < indent ∧ c = '\t' then none
      else readPlain inFlow indent (column + 1) acc (gap.blank c) cs
    else if c = '\r' ∧ cs.head? = some '\n' then readPlain inFlow indent column acc gap cs
    else if isBreak c then
      let c := if c == '\u2028' || c == '\u2029' then c else '\n'
      readPlain inFlow indent 0 acc (gap.lineBreak c) cs
    else
      let here : Plain := ⟨acc.reverse, gap.broken, c :: cs⟩
      if !gap.isEmpty && !inFlow && column < indent then some here
      else if atDocumentMark column (c :: cs) then some here
      else if c = '#' ∧ !gap.isEmpty then some here
      else if inFlow && c == ':' && (cs.head?.any fun d => isFlowMark d || d == '?') then none
      else if (c == ':' && atGap cs) || (inFlow && isFlowMark c) then some here
      else readPlain inFlow indent (column + 1) (c :: gap.onto acc) {} cs

/-- What a block scalar keeps of the line breaks at its end. -/
inductive Chomp where
  | strip
  | clip
  | keep
deriving Repr, DecidableEq

/-- The head of a block scalar: chomping, explicit indentation (zero if there is none), and the
text after the line. -/
def readBlockHead (cs : List Char) : Option (Chomp × Nat × List Char) := do
  let chompOf := fun (c : Char) => if c == '+' then some Chomp.keep else if c == '-' then some .strip else none
  let digitOf := fun (c : Char) => if c.isDigit then some (c.toNat - '0'.toNat) else none
  let (chomp, digit, rest) := match cs with
    | a :: b :: rest => match chompOf a, digitOf a, chompOf b, digitOf b with
      | some k, _, _, some d => (k, some d, rest)
      | some k, _, _, none => (k, none, b :: rest)
      | none, some d, some k, _ => (k, some d, rest)
      | none, some d, none, _ => (.clip, some d, b :: rest)
      | none, none, _, _ => (.clip, none, cs)
    | [a] => match chompOf a, digitOf a with
      | some k, _ => (k, none, [])
      | none, some d => (.clip, some d, [])
      | none, none => (.clip, none, cs)
    | [] => (.clip, none, [])
  if digit = some 0 then none
  let rest := rest.dropWhile isBlank
  let rest := if rest.head? = some '#' then rest.dropWhile (!isBreak ·) else rest
  match rest, lineBreak? rest with
  | [], _ => return (chomp, digit.getD 0, [])
  | _, some (_, rest) => return (chomp, digit.getD 0, rest)
  | _, none => none

/-- Eats indentation and empty lines of a block scalar: the breaks (latest first), the column, the
widest indentation met, and the rest.  Without a known `indent` all spaces are eaten. -/
def readBlockGap (indent column widest : Nat) (breaks : List Char) :
    List Char → Option (List Char × Nat × Nat × List Char)
  | [] => some (breaks, column, max widest column, [])
  | c :: cs =>
    let inside := indent == 0 || column < indent
    if inside && c == ' ' then readBlockGap indent (column + 1) (max widest (column + 1)) breaks cs
    else if inside && c == '\t' then none
    else if c = '\r' ∧ cs.head? = some '\n' then readBlockGap indent column (max widest column) breaks cs
    else if isBreak c then
      let c := if c == '\u2028' || c == '\u2029' then c else '\n'
      readBlockGap indent 0 (max widest column) (c :: breaks) cs
    else some (breaks, column, max widest column, c :: cs)

/-- The state of a block scalar between two lines; lists are kept latest first. -/
structure BlockLines where
  acc : List Char := []
  /-- The break after the last line. -/
  lead : List Char := []
  /-- The breaks of the empty lines after it. -/
  trail : List Char := []
  indented : Bool := false

/-- Reads the lines of a block scalar at column `indent`; the fuel bounds their number. -/
def readBlockLines (folded : Bool) (indent : Nat) :
    Nat → BlockLines → Nat → List Char → Option (BlockLines × List Char)
  | 0, _, _, _ => none
  | fuel + 1, s, column, cs =>
    if column ≠ indent ∨ cs.isEmpty then some (s, cs)
    else
      let starts := cs.head?.any isBlank
      let acc :=
        if folded && s.lead == ['\n'] && !s.indented && !starts then
          s.trail ++ (if s.trail.isEmpty then ' ' :: s.acc else s.acc)
        else s.trail ++ (s.lead ++ s.acc)
      let line := cs.takeWhile (!isBreak ·)
      let after := cs.dropWhile (!isBreak ·)
      let (lead, after) := match lineBreak? after with
        | some (b, rest) => ([b], rest)
        | none => ([], after)
      let column := if lead.isEmpty then indent + line.length else 0
      match readBlockGap indent column 0 [] after with
      | none => none
      | some (trail, column, _, rest) =>
        readBlockLines folded indent fuel ⟨line.reverse ++ acc, lead, trail, starts⟩ column rest

/-- Reads a block scalar after its indicator; `parent` is the indentation around it. -/
def readBlock (folded : Bool) (parent : Int) (cs : List Char) : Option (List Char × List Char) := do
  let (chomp, increment, rest) ← readBlockHead cs
  let given := if increment = 0 then 0 else if 0 ≤ parent then parent.toNat + increment else increment
  let (trail, column, widest, rest) ← readBlockGap given 0 0 [] rest
  let indent := if given ≠ 0 then given else max widest (max (parent + 1).toNat 1)
  let (s, rest) ← readBlockLines folded indent (rest.length + 1) { trail } column rest
  let text := match chomp with
    | .strip => s.acc
    | .clip => s.lead ++ s.acc
    | .keep => s.trail ++ (s.lead ++ s.acc)
  return (text.reverse, rest)

end Restyle.Yaml
