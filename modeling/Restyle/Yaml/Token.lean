import Restyle.Yaml.Tag

/-! # Tokens

The tokens of a YAML stream.  Indentation becomes explicit start and end tokens, and a key that is
recognised only by the colon after it gets its marker inserted in front of it.
-/
namespace Restyle.Yaml

inductive Token where
  | streamEnd
  | directive (d : Directive)
  | documentStart
  | documentEnd
  | blockSequenceStart
  | blockMappingStart
  | blockEnd
  | flowSequenceStart
  | flowSequenceEnd
  | flowMappingStart
  | flowMappingEnd
  | blockEntry
  | flowEntry
  | key
  | value
  | alias (name : List Char)
  | anchor (name : List Char)
  | tag (handle suffix : List Char)
  | scalar (text : List Char) (plain : Bool)
deriving Repr, DecidableEq

/-- A place where a key may have started: its token number, and whether it must turn out to be a
key. -/
structure KeyStart where
  required : Bool
  token : Nat
  place : Place
deriving Repr

/-- The state of the reading of tokens.  `keys` holds the possible key of each flow level, innermost
first. -/
structure Scan where
  rest : List Char
  place : Place := {}
  tokens : Array Token := #[]
  indent : Int := -1
  outer : List Int := []
  flow : Nat := 0
  keyAllowed : Bool := true
  keys : List (Option KeyStart) := [none]

namespace Scan

/-- Moves on to `rest`, which is a suffix of what is ahead. -/
def moveTo (s : Scan) (rest : List Char) : Scan :=
  { s with rest, place := s.place.advance (s.rest.take (s.rest.length - rest.length)) }

def emit (s : Scan) (t : Token) : Scan := { s with tokens := s.tokens.push t }

def emitAt (s : Scan) (position : Nat) (t : Token) : Scan :=
  { s with tokens := s.tokens.extract 0 position ++ #[t] ++ s.tokens.extract position s.tokens.size }

/-- Skips blanks, comments and line breaks; the fuel bounds the number of lines.  Tabs count as
blanks only where no key may start. -/
def skipGap : Nat → Scan → Scan
  | 0, s => s
  | fuel + 1, s =>
    let s := if s.place.index = 0 ∧ s.rest.head? = some '\uFEFF' then s.moveTo (s.rest.drop 1) else s
    let tabs := 0 < s.flow || !s.keyAllowed
    let rest := s.rest.dropWhile fun c => c == ' ' || (tabs && c == '\t')
    let rest := if rest.head? = some '#' then rest.dropWhile (!isBreak ·) else rest
    let s := s.moveTo rest
    match lineBreak? rest with
    | some (_, rest) =>
      let s := s.moveTo rest
      skipGap fuel (if s.flow = 0 then { s with keyAllowed := true } else s)
    | none => s

/-- Gives up keys that are too far away: a key stays on one line and within 1024 characters. -/
def dropStale (s : Scan) : Option Scan := do
  let keys ← s.keys.mapM fun k? => match k? with
    | none => some none
    | some k =>
      if k.place.line < s.place.line ∨ k.place.index + 1024 < s.place.index then
        if k.required then none else some none
      else some (some k)
  return { s with keys }

def unroll (s : Scan) (column : Int) : Scan :=
  if 0 < s.flow then s
  else
    let closed := (s.indent :: s.outer).takeWhile (column < ·)
    match (s.indent :: s.outer).drop closed.length with
    | indent :: outer =>
      { s with indent, outer, tokens := s.tokens ++ (List.replicate closed.length Token.blockEnd).toArray }
    | [] => s

/-- Starts a block collection at `column` if that is further to the right than the current one. -/
def roll (s : Scan) (column : Nat) (position : Nat) (t : Token) : Scan :=
  if 0 < s.flow ∨ (column : Int) ≤ s.indent then s
  else { s with indent := column, outer := s.indent :: s.outer }.emitAt position t

/-- Gives up the possible key of the current level, unless it is required. -/
def dropKey (s : Scan) : Option Scan :=
  match s.keys with
  | some k :: keys => if k.required then none else some { s with keys := none :: keys }
  | _ => some s

def saveKey (s : Scan) : Option Scan :=
  if s.keyAllowed then do
    let required := s.flow = 0 ∧ s.indent = s.place.column
    let k : KeyStart := ⟨required, s.tokens.size, s.place⟩
    let s ← s.dropKey
    return { s with keys := some k :: s.keys.drop 1 }
  else some s

def take (s : Scan) (n : Nat) (t : Token) : Scan := (s.moveTo (s.rest.drop n)).emit t

def openFlow (s : Scan) (t : Token) : Option Scan := do
  let s ← s.saveKey
  return { s with keys := none :: s.keys, flow := s.flow + 1, keyAllowed := true }.take 1 t

def closeFlow (s : Scan) (t : Token) : Option Scan := do
  let s ← s.dropKey
  let s := if 0 < s.flow then { s with keys := s.keys.drop 1, flow := s.flow - 1 } else s
  return { s with keyAllowed := false }.take 1 t

def indicator (s : Scan) (collection t : Token) (keyAllowed : Bool) : Option Scan := do
  if s.flow = 0 ∧ !s.keyAllowed then none
  let s := if s.flow = 0 then s.roll s.place.column s.tokens.size collection else s
  let s ← s.dropKey
  return { s with keyAllowed }.take 1 t

/-- Takes the indicator of a value.  The possible key, if there is one, becomes a key. -/
def valueIndicator (s : Scan) : Option Scan := do
  match s.keys with
  | some k :: keys =>
    let s := s.emitAt k.token .key
    let s := s.roll k.place.column k.token .blockMappingStart
    return { s with keys := none :: keys, keyAllowed := false }.take 1 .value
  | _ =>
    if s.flow = 0 ∧ !s.keyAllowed then none
    let s := if s.flow = 0 then s.roll s.place.column s.tokens.size .blockMappingStart else s
    return { s with keyAllowed := decide (s.flow = 0) }.take 1 .value

def named {α : Type} (s : Scan) (found : Option (α × List Char)) (t : α → Token) : Option Scan := do
  let s ← s.saveKey
  let (value, rest) ← found
  return { s with keyAllowed := false }.moveTo rest |>.emit (t value)

def documentMark (s : Scan) (t : Token) : Option Scan := do
  let s ← (s.unroll (-1)).dropKey
  return { s with keyAllowed := false }.take 3 t

def startsPlain (inFlow : Bool) (c : Char) (cs : List Char) : Bool :=
  if c == '-' then !(cs.head?.any isBlank)
  else if c == '?' || c == ':' then !inFlow && !atGap cs
  else !("-?:,[]{}#&*!|>\"%@".toList.contains c || c == '\x27' || c == '\x60' ||
    isBlank c || isBreak c)

def fetchAt (s : Scan) (c : Char) (cs : List Char) : Option Scan :=
  let inFlow := decide (0 < s.flow)
  if s.place.column = 0 ∧ c = '%' then do
    let s ← (s.unroll (-1)).dropKey
    let (d, rest) ← readDirective cs
    return { s with keyAllowed := false }.moveTo rest |>.emit (.directive d)
  else if atDocumentMark s.place.column (c :: cs) then
    s.documentMark (if c = '-' then .documentStart else .documentEnd)
  else if c = '[' then s.openFlow .flowSequenceStart
  else if c = '{' then s.openFlow .flowMappingStart
  else if c = ']' then s.closeFlow .flowSequenceEnd
  else if c = '}' then s.closeFlow .flowMappingEnd
  else if c = ',' then do
    let s ← s.dropKey
    return { s with keyAllowed := true }.take 1 .flowEntry
  else if c = '-' ∧ atGap cs then s.indicator .blockSequenceStart .blockEntry true
  else if c = '?' ∧ (inFlow ∨ atGap cs) then s.indicator .blockMappingStart .key (!inFlow)
  else if c = ':' ∧ (inFlow ∨ atGap cs) then s.valueIndicator
  else if c = '*' then s.named (readAnchor cs) .alias
  else if c = '&' then s.named (readAnchor cs) .anchor
  else if c = '!' then s.named (readTag inFlow (c :: cs)) fun t => .tag t.1 t.2
  else if (c = '|' ∨ c = '>') ∧ !inFlow then do
    let s ← s.dropKey
    let (text, rest) ← readBlock (c = '>') s.indent cs
    return { s with keyAllowed := true }.moveTo rest |>.emit (.scalar text false)
  else if c = '\x27' ∨ c = '"' then
    s.named (readQuoted c (s.place.column + 1) [] {} 0 [] cs) fun text => .scalar text false
  else if startsPlain inFlow c cs then do
    let s ← s.saveKey
    let p ← readPlain inFlow (s.indent + 1).toNat s.place.column [] {} (c :: cs)
    return { s with keyAllowed := p.broken }.moveTo p.rest |>.emit (.scalar p.text true)
  else none

/-- Takes the tokens up to the end of the stream; the fuel bounds their number. -/
def run : Nat → Scan → Option (Array Token)
  | 0, _ => none
  | fuel + 1, s => do
    let s ← (s.skipGap (s.rest.length + 1)).dropStale
    let s := s.unroll s.place.column
    match s.rest with
    | [] => do
      let s ← (s.unroll (-1)).dropKey
      return s.tokens.push .streamEnd
    | c :: cs => do run fuel (← s.fetchAt c cs)

end Scan

/-- The tokens of a text, if it is sound YAML as far as tokens go.  A byte order mark at the front is a
character of its own column. -/
def tokens? (text : List Char) : Option (List Token) :=
  let start : Scan := match text with
    | '\uFEFF' :: rest => { rest, place := ⟨1, 0, 1⟩ }
    | rest => { rest }
  if text.all isAllowed then (Scan.run (text.length + 2) start).map Array.toList else none

end Restyle.Yaml
