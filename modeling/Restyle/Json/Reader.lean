import Restyle.Json.Token
import Restyle.Json.Value

/-! # Reading JSON

Tokens are taken one by one; the containers that are still open form a stack.  Members of one name
may occur several times; whoever reads the value decides what that means.
-/
namespace Restyle
namespace JsonValue

/-- A container that is still open, with what it holds so far, latest first.  An object may wait for
the value of a key. -/
inductive Frame where
  | items (done : List JsonValue)
  | members (done : List (String × JsonValue)) (key : Option String)

inductive Expected where
  | value
  /-- A value, or the end of an array that was just opened. -/
  | valueOrClose
  /-- A key, or the end of an object that was just opened. -/
  | keyOrClose
  | key
  | colon
  | commaOrClose
  /-- Nothing: the value is complete. -/
  | done (v : JsonValue)

structure Reading where
  expected : Expected := .value
  stack : List Frame := []

namespace Reading

def put (r : Reading) (v : JsonValue) : Option Reading :=
  match r.stack with
  | [] => some ⟨.done v, []⟩
  | .items done :: stack => some ⟨.commaOrClose, .items (v :: done) :: stack⟩
  | .members done (some k) :: stack => some ⟨.commaOrClose, .members ((k, v) :: done) none :: stack⟩
  | .members _ none :: _ => none

def closeItems (r : Reading) : Option Reading :=
  match r.stack with
  | .items done :: stack => (⟨.value, stack⟩ : Reading).put (.items done.reverse)
  | _ => none

def closeMembers (r : Reading) : Option Reading :=
  match r.stack with
  | .members done none :: stack => (⟨.value, stack⟩ : Reading).put (.members done.reverse)
  | _ => none

def value (r : Reading) (t : JsonToken) : Option Reading :=
  match t with
  | .null => r.put .null
  | .bool b => r.put (.bool b)
  | .whole n => r.put (.whole n)
  | .fraction literal => r.put (.fraction literal)
  | .text s => r.put (.text s)
  | .openItems => some ⟨.valueOrClose, .items [] :: r.stack⟩
  | .openMembers => some ⟨.keyOrClose, .members [] none :: r.stack⟩
  | _ => none

def key (r : Reading) (t : JsonToken) : Option Reading :=
  match t, r.stack with
  | .text k, .members done none :: stack => some ⟨.colon, .members done (some k) :: stack⟩
  | _, _ => none

def step (r : Reading) (t : JsonToken) : Option Reading :=
  match r.expected with
  | .value => r.value t
  | .valueOrClose => if t = .closeItems then r.closeItems else r.value t
  | .keyOrClose => if t = .closeMembers then r.closeMembers else r.key t
  | .key => r.key t
  | .colon => if t = .colon then some { r with expected := .value } else none
  | .commaOrClose => match t, r.stack with
    | .comma, .items _ :: _ => some { r with expected := .value }
    | .comma, .members _ _ :: _ => some { r with expected := .key }
    | .closeItems, _ => r.closeItems
    | .closeMembers, _ => r.closeMembers
    | _, _ => none
  | .done _ => none

def result? (r : Reading) : Option JsonValue :=
  match r.expected with
  | .done v => some v
  | _ => none

end Reading

def read? (s : String) : Option JsonValue :=
  (JsonToken.tokens? s.toList).bind fun ts => (ts.foldlM Reading.step {}).bind Reading.result?

end JsonValue
end Restyle
