import Restyle.Json.Reader
import Restyle.Text.Span

/-! # Settings

What a user can set in a settings file.  The file holds an object in which every member is optional
and none is unknown or repeated, or an array with the values in order.
-/
namespace Restyle

/-- What to do for the hints of a file while its configuration is broken. -/
inductive Fallback where
  | never
  | always
  /-- Give the last good hints for this many failures in a row. -/
  | maxConsecutive (n : Nat)
deriving Repr, DecidableEq, Inhabited

structure Settings where
  enabled : Bool := true
  clangFormatPath : Option String := none
  timeoutMillis : Nat := 10000
  fallback : Fallback := .always
deriving Repr, DecidableEq, Inhabited

namespace Fallback

def ofJson? : JsonValue → Option Fallback
  | .text "never" => some never
  | .text "always" => some always
  | .members [("never", .null)] => some never
  | .members [("always", .null)] => some always
  | .members [("maxConsecutive", .whole n)] =>
    if 0 ≤ n ∧ n < UInt32.size then some (maxConsecutive n.toNat) else none
  | _ => none

def toJson : Fallback → JsonValue
  | never => .text "never"
  | always => .text "always"
  | maxConsecutive n => .members [("maxConsecutive", .whole n)]

end Fallback

namespace Settings

def timeout (s : Settings) : Span := .ofMillis s.timeoutMillis

def memberNames : List String := ["enabled", "clangFormatPath", "timeoutMs", "validationFallback"]

def path? : JsonValue → Option (Option String)
  | .null => some none
  | .text p => some (some p)
  | _ => none

def word? : JsonValue → Option Nat
  | .whole n => if 0 ≤ n ∧ n < UInt64.size then some n.toNat else none
  | _ => none

def set? (s : Settings) (name : String) (v : JsonValue) : Option Settings :=
  match name, v with
  | "enabled", .bool b => some { s with enabled := b }
  | "clangFormatPath", v => (path? v).map fun p => { s with clangFormatPath := p }
  | "timeoutMs", v => (word? v).map fun n => { s with timeoutMillis := n }
  | "validationFallback", v => (Fallback.ofJson? v).map fun f => { s with fallback := f }
  | _, _ => none

/-- Sets members one after the other; `seen` holds the names so far. -/
def setAll? (s : Settings) (seen : List String) : List (String × JsonValue) → Option Settings
  | [] => some s
  | (name, v) :: ms =>
    if seen.contains name then none else (s.set? name v).bind (·.setAll? (name :: seen) ms)

def ofJson? : JsonValue → Option Settings
  | .members ms => setAll? {} [] ms
  | .items vs =>
    if vs.length ≤ memberNames.length then setAll? {} [] (memberNames.zip vs) else none
  | _ => none

def read? (text : String) : Option Settings := (JsonValue.read? text).bind ofJson?

def toJson (s : Settings) : JsonValue :=
  .members [("enabled", .bool s.enabled),
    ("clangFormatPath", (s.clangFormatPath.map JsonValue.text).getD .null),
    ("timeoutMs", .whole s.timeoutMillis), ("validationFallback", s.fallback.toJson)]

end Settings
end Restyle
