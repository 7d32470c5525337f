import Restyle.Failure
import Restyle.Markup.Attribute
import Restyle.Text.Blank

/-! # The replacement listing

The tool lists its replacements as markup: one root element with a flag, and in it one element per
replacement with its range as attributes and its text as content.  `Response.ofEvents` reads such
a listing from its markup events, `Response.render` writes one.
-/
namespace Restyle
open Markup

inductive ListingState where
  | beforeRoot
  | inRoot
  | inReplacement (offset length : Nat) (text : List Char)
  | afterRoot
deriving Repr, DecidableEq

namespace Response

/-- Output that is quoted in a message is cut after this many characters. -/
def quotedLimit : Nat := 500

def excerpt (output : String) : String :=
  let cs := output.toList
  if quotedLimit < cs.length then String.ofList (cs.take quotedLimit ++ ['.', '.', '.']) else output

def readAttribute (name : String) (attributes : List Char) : Except DecodeFault (Option (List Char)) :=
  (attribute? name attributes).mapError fun
    | .malformed => .malformedAttribute
    | .value => .malformedAttributeValue

/-- The flag on the root, which is off when it is missing. -/
def readFlag (attributes : List Char) : Except DecodeFault Bool := do
  match ← readAttribute "incomplete_format" attributes with
  | none => return false
  | some value =>
    let value := Text.trimChars value
    if value = "true".toList then return true
    else if value = "false".toList then return false
    else throw (.invalidFlag (String.ofList value))

def readNumber (name : String) (attributes : List Char) : Except DecodeFault Nat := do
  match ← readAttribute name attributes with
  | none => throw (.missingAttribute name)
  | some value =>
    match Text.readWord (Text.trimChars value) with
    | .ok n => return n
    | .error _ => throw (.invalidAttribute name (String.ofList value))

def readRange (attributes : List Char) : Except DecodeFault (Nat × Nat) := do
  let offset ← readNumber "offset" attributes
  let length ← readNumber "length" attributes
  if maxWord < offset + length then throw (.rangeOverflow offset length)
  return (offset, length)

def push (read : List Replacement) (r : Replacement) : Except DecodeFault (List Replacement) :=
  match read with
  | [] => .ok [r]
  | previous :: _ =>
    if r.offset < previous.stop then
      .error (.overlap r.offset previous.offset previous.length)
    else .ok (r :: read)

/-- What has been read of a listing: the state, the flag, and the replacements, latest first. -/
structure Progress where
  state : ListingState := .beforeRoot
  flag : Bool := false
  read : List Replacement := []
deriving Repr, DecidableEq

def kindOf : Event → MarkupKind
  | .start _ _ => .start
  | .empty _ _ => .empty
  | .stop _ => .stop
  | .cdata _ => .cdata
  | _ => .text

def step (p : Progress) (e : Event) : Except (DecodeFault ⊕ MarkupKind) Progress :=
  match p.state, e with
  | _, .aside => .ok p
  | _, .malformed => .error (.inl .malformedMarkup)
  | .beforeRoot, .start name attributes =>
    if name = "replacements".toList then do
      let flag ← (readFlag attributes).mapError .inl
      return { p with state := .inRoot, flag }
    else .error (.inr .start)
  | .beforeRoot, .empty name attributes =>
    if name = "replacements".toList then do
      let flag ← (readFlag attributes).mapError .inl
      return { p with state := .afterRoot, flag }
    else .error (.inr .empty)
  | .inRoot, .start name attributes =>
    if name = "replacement".toList then do
      let (offset, length) ← (readRange attributes).mapError .inl
      return { p with state := .inReplacement offset length [] }
    else .error (.inr .start)
  | .inRoot, .empty name attributes =>
    if name = "replacement".toList then do
      let (offset, length) ← (readRange attributes).mapError .inl
      let read ← (push p.read ⟨offset, length, ""⟩).mapError .inl
      return { p with read }
    else .error (.inr .empty)
  | .inRoot, .stop _ => .ok { p with state := .afterRoot }
  | .inReplacement offset length text, .text raw => match unescape raw with
    | some value => .ok { p with state := .inReplacement offset length (text ++ value) }
    | none => .error (.inl .malformedText)
  | .inReplacement offset length text, .cdata raw =>
    .ok { p with state := .inReplacement offset length (text ++ raw) }
  | .inReplacement offset length text, .stop _ => do
    let read ← (push p.read ⟨offset, length, String.ofList text⟩).mapError .inl
    return { p with state := .inRoot, read }
  | .inReplacement _ _ _, e => .error (.inr (kindOf e))
  | _, .text raw => if raw.all Text.isAsciiBlank then .ok p else .error (.inr .text)
  | _, e => .error (.inr (kindOf e))

/-- Reads the rest of a listing.  Faults name misplaced markup by its kind. -/
def ofEventsFrom (p : Progress) : List Event → Except (DecodeFault ⊕ MarkupKind) Response
  | [] | .eof :: _ =>
    if p.state = .afterRoot then .ok ⟨p.read.reverse, p.flag⟩ else .error (.inl .unexpectedEnd)
  | e :: rest => do ofEventsFrom (← step p e) rest

def ofEvents (events : List Event) : Except (DecodeFault ⊕ MarkupKind) Response :=
  ofEventsFrom {} events

/-- Decodes the output of a formatting run.  Blank output means that there is nothing to change. -/
def decode (output : String) : Except DecodeFault Response :=
  if Text.isBlankText output then .ok {}
  else (ofEvents (events output.toList)).mapError fun
    | .inl fault => fault
    | .inr kind => .unexpectedContent kind (excerpt output)

def renderReplacement (r : Replacement) : List Char :=
  "<replacement offset='".toList ++ (toString r.offset).toList ++ "' length='".toList ++
    (toString r.length).toList ++ "'>".toList ++ escape r.text.toList ++ "</replacement>\n".toList

def render (r : Response) : String :=
  String.ofList ("<?xml version='1.0'?>\n<replacements xml:space='preserve' incomplete_format='".toList ++
    (toString r.incompleteFormat).toList ++ "'>\n".toList ++
    r.replacements.flatMap renderReplacement ++ "</replacements>\n".toList)

end Response
end Restyle
