import Restyle.Edit.Apply
import Restyle.Text.Span

/-! # Failures

Everything that can go wrong in a formatting or style request, as causes.  The wording of each
cause is given by `DecodeFault.message` and `Failure.message`.
-/
namespace Restyle

/-- A place in a file, counted from zero. -/
structure Position where
  file : String
  line : Nat
  column : Nat
deriving Repr, DecidableEq, Inhabited

inductive MarkupKind where
  | start
  | stop
  | empty
  | text
  | cdata
deriving Repr, DecidableEq

def MarkupKind.name : MarkupKind → String
  | start => "Start"
  | stop => "End"
  | empty => "Empty"
  | text => "Text"
  | cdata => "CData"

inductive DecodeFault where
  | malformedMarkup
  | unexpectedEnd
  /-- Markup of this kind stands where it is not expected; the output is quoted. -/
  | unexpectedContent (kind : MarkupKind) (quoted : String)
  | malformedText
  | malformedAttribute
  | malformedAttributeValue
  | missingAttribute (name : String)
  | invalidAttribute (name value : String)
  | invalidFlag (value : String)
  /-- Offset plus length is no number of 64 bits. -/
  | rangeOverflow (offset length : Nat)
  /-- A replacement starts before the end of the one before it. -/
  | overlap (offset previousOffset previousLength : Nat)
  | malformedYaml
  | notMapping (dump : String)
  | nonStringKey (key : String)
  | repeatedKey (key : String)
  | unapplicable (cause : ApplyError)
  | described (text : String)
deriving Repr, DecidableEq

namespace DecodeFault

def message : DecodeFault → String
  | malformedMarkup => "Invalid XML"
  | unexpectedEnd => "Unexpected end of output."
  | unexpectedContent kind quoted => s!"Unexpected content: {kind.name}\n{quoted}"
  | malformedText => "Invalid replacement text"
  | malformedAttribute => "Invalid attribute"
  | malformedAttributeValue => "Invalid attribute value"
  | missingAttribute name => s!"Replacement is missing the {name} attribute."
  | invalidAttribute name value => s!"Invalid {name} attribute: {value}"
  | invalidFlag value => s!"Invalid incomplete_format value: {value}"
  | rangeOverflow offset length =>
    s!"Replacement range out of bounds: offset {offset} length {length}"
  | overlap offset previousOffset previousLength =>
    s!"Replacement at offset {offset} overlaps or precedes the replacement " ++
      s!"at offset {previousOffset} (length {previousLength})."
  | malformedYaml => "Style dump was not valid YAML."
  | notMapping dump => s!"Style dump was not a mapping:\n{dump}"
  | nonStringKey key => s!"Style dump had a non-string key: {key}"
  | repeatedKey key => s!"Style dump had the key '{key}' more than once."
  | unapplicable cause => cause.message
  | described text => text

end DecodeFault

inductive Failure where
  | toolNotFound
  | notConfigured
  | unsupportedLanguage (text : String)
  /-- The configuration itself is malformed at a known place. -/
  | validation (description : String) (position : Position)
  | decode (fault : DecodeFault)
  /-- The tool failed without a diagnostic that is recognised. -/
  | toolFailure (text : String)
  | process (text : String)
  | timedOut (limit : Span)
  | cancelled
deriving Repr, DecidableEq

namespace Failure

def message : Failure → String
  | toolNotFound => "Cannot find clang-format."
  | notConfigured => "No .clang-format file applies to this file."
  | unsupportedLanguage text => text
  | validation description _ => description
  | decode fault => s!"Could not decode clang-format output. {fault.message}"
  | toolFailure text => text
  | process text => text
  | timedOut limit => s!"clang-format did not finish within {limit.millis}ms."
  | cancelled => "The operation was cancelled."

def isSilent : Failure → Bool
  | notConfigured | unsupportedLanguage _ | cancelled => true
  | _ => false

def isValidation : Failure → Bool
  | validation _ _ => true
  | _ => false

def position? : Failure → Option Position
  | validation _ position => some position
  | _ => none

def describe : Failure → String
  | toolNotFound => "ToolNotFound"
  | notConfigured => "NotConfigured"
  | unsupportedLanguage text => s!"UnsupportedLanguage({Text.quote text})"
  | validation description position =>
    s!"Validation \x7b description: {Text.quote description}, position: SourcePosition \x7b " ++
      s!"file: {Text.quotePath position.file}, line: {position.line}, " ++
      s!"column: {position.column} \x7d \x7d"
  | decode fault => s!"Decode({Text.quote fault.message})"
  | toolFailure text => s!"ToolFailure({Text.quote text})"
  | process text => s!"Process({Text.quote text})"
  | timedOut limit => s!"TimedOut({limit.short})"
  | cancelled => "Cancelled"

end Failure
end Restyle
