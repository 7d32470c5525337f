import Restyle.Settings.Basic
import Restyle.Style.Hints
import Restyle.Style.Recent

/-! # Remembered hints

The last good hints of each file, with the number of broken requests since then.
-/
namespace Restyle

structure GoodHints where
  hints : Hints
  failures : Nat := 0
deriving Repr, DecidableEq

abbrev HintMemory := Recent GoodHints

def Fallback.allows (f : Fallback) (failures : Nat) : Bool :=
  match f with
  | never => false
  | always => true
  | maxConsecutive n => failures ≤ n

namespace HintMemory

def succeed (m : HintMemory) (path : String) (h : Hints) : HintMemory := m.insert path { hints := h }

/-- Counts a failure; answers the last good hints if they may still be given. -/
def fail (m : HintMemory) (f : Fallback) (path : String) : Option Hints × HintMemory :=
  match m.get? path with
  | none => (none, m)
  | some good =>
    let failures := good.failures + 1
    (if f.allows failures then some good.hints else none,
      m.modify path fun g => { g with failures := g.failures + 1 })

end HintMemory
end Restyle
