import Restyle.Failure
import Restyle.Style.Basic
import Restyle.Yaml.Value

/-! # Style dumps

The tool reports a style as a YAML mapping.  Numbers that do not fit 64 signed bits become their
text, null becomes the empty text, texts are trimmed, and tags are dropped.
-/
namespace Restyle

def fitsSigned (n : Int) : Bool := Int64.minValue.toInt ≤ n && n ≤ Int64.maxValue.toInt

namespace StyleValue

def ofNumber (n : Yaml.Number) : StyleValue :=
  match n with
  | .whole i => if fitsSigned i then int i else text n.text
  | _ => text n.text

mutual

def ofYaml : Yaml.Value → Except DecodeFault StyleValue
  | .null => .ok (text "")
  | .bool b => .ok (bool b)
  | .number n => .ok (ofNumber n)
  | .string s => .ok (text (Text.trim s))
  | .sequence values => (itemsOfYaml values).map items
  | .mapping entries => (entriesOfYaml [] entries).map options
  | .tagged _ v => ofYaml v

def itemsOfYaml : List Yaml.Value → Except DecodeFault (List StyleValue)
  | [] => .ok []
  | v :: vs => (ofYaml v).bind fun x => (itemsOfYaml vs).map (x :: ·)

/-- The entries that YAML entries stand for, after those with the keys `seen`.  Every key is a string,
and none occurs twice. -/
def entriesOfYaml (seen : List String) :
    List (Yaml.Value × Yaml.Value) → Except DecodeFault (List (String × StyleValue))
  | [] => .ok []
  | (.string key, v) :: es => (ofYaml v).bind fun x =>
    if seen.contains key then .error (.repeatedKey key)
    else (entriesOfYaml (key :: seen) es).map ((key, x) :: ·)
  | (k, _) :: _ => .error (.nonStringKey k.describe)

end

end StyleValue

def Style.ofDump (dump : String) : Except DecodeFault Style :=
  match Yaml.Value.read? dump with
  | none => .error .malformedYaml
  | some (.mapping entries) => (StyleValue.entriesOfYaml [] entries).map Style.mk
  | some _ => .error (.notMapping dump)

end Restyle
