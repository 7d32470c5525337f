import Restyle.Json.Value
import Restyle.Text.Blank

/-! # Styles

The options of a style in the order in which they were reported.  Keys are case sensitive and occur
once; a missing key means that the option was not reported.
-/
namespace Restyle

inductive StyleValue where
  | bool (b : Bool)
  | int (n : Int)
  | text (s : String)
  | options (entries : List (String × StyleValue))
  | items (values : List StyleValue)
deriving Inhabited

structure Style where
  entries : List (String × StyleValue) := []
deriving Inhabited

namespace StyleValue

def scalarText? : StyleValue → Option String
  | bool b => some (toString b)
  | int n => some (toString n)
  | text s => some s
  | options _ | items _ => none

mutual

def toJson : StyleValue → JsonValue
  | bool b => .bool b
  | int n => .whole n
  | text s => .text s
  | options entries => .members (entriesToJson entries)
  | items values => .items (itemsToJson values)

def entriesToJson : List (String × StyleValue) → List (String × JsonValue)
  | [] => []
  | (k, v) :: es => (k, toJson v) :: entriesToJson es

def itemsToJson : List StyleValue → List JsonValue
  | [] => []
  | v :: vs => toJson v :: itemsToJson vs

end

end StyleValue

/-- Puts an entry into a list of entries.  A key that is there keeps its place. -/
def insertEntry {α : Type} (key : String) (value : α) : List (String × α) → List (String × α)
  | [] => [(key, value)]
  | (k, v) :: es => if k = key then (k, value) :: es else (k, v) :: insertEntry key value es

namespace Style

def get? (s : Style) (key : String) : Option StyleValue :=
  (s.entries.find? (·.1 = key)).map (·.2)

def insert (s : Style) (key : String) (value : StyleValue) : Style :=
  ⟨insertEntry key value s.entries⟩

def ofList (entries : List (String × StyleValue)) : Style :=
  entries.foldl (fun s e => s.insert e.1 e.2) {}

def size (s : Style) : Nat := s.entries.length

def isEmpty (s : Style) : Bool := s.entries.isEmpty

def contains (s : Style) (key : String) : Bool := (s.get? key).isSome

def bool? (s : Style) (key : String) : Option Bool :=
  match s.get? key with
  | some (.bool b) => some b
  | _ => none

def int? (s : Style) (key : String) : Option Int :=
  match s.get? key with
  | some (.int n) => some n
  | _ => none

def text? (s : Style) (key : String) : Option String :=
  match s.get? key with
  | some (.text t) => some t
  | _ => none

def options? (s : Style) (key : String) : Option Style :=
  match s.get? key with
  | some (.options entries) => some ⟨entries⟩
  | _ => none

def language? (s : Style) : Option String := (s.text? "Language").map Text.trim

def toJson (s : Style) : JsonValue := .members (StyleValue.entriesToJson s.entries)

end Style
end Restyle
