import Restyle.Style.Basic

/-! # Editor hints

The few settings that an editor takes from a style.
-/
namespace Restyle

structure Hints where
  rightMargin : Option Nat := none
  indentSize : Option Nat := none
  tabSize : Option Nat := none
  useTab : Bool := false
deriving Repr, DecidableEq, Inhabited

def lowerAscii (s : String) : String := String.ofList (s.toList.map Char.toLower)

namespace Hints

/-- A positive option of at most 32 bits. -/
def positive? (s : Style) (key : String) : Option Nat :=
  (s.int? key).bind fun n => if 0 < n ∧ n < UInt32.size then some n.toNat else none

/-- Tabs are used unless the option is missing, false or never. -/
def usesTab (s : Style) : Bool :=
  match s.get? "UseTab" with
  | none => false
  | some (.bool b) => b
  | some v => match v.scalarText? with
    | some t => lowerAscii t ≠ "false" && lowerAscii t ≠ "never"
    | none => true

def ofStyle (s : Style) : Hints :=
  ⟨positive? s "ColumnLimit", positive? s "IndentWidth", positive? s "TabWidth", usesTab s⟩

def numberOrNull (n : Option Nat) : JsonValue :=
  match n with
  | some n => .whole n
  | none => .null

def toJson (h : Hints) : JsonValue :=
  .members [("rightMargin", numberOrNull h.rightMargin), ("indentSize", numberOrNull h.indentSize),
    ("tabSize", numberOrNull h.tabSize), ("useTab", .bool h.useTab)]

end Hints
end Restyle
