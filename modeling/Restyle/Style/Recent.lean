import Restyle.File.Path

/-! # Recent values by path

At most five hundred values, each under its own path.  A value that is put in becomes the latest; the
oldest one makes room.
-/
namespace Restyle

structure Recent (α : Type) where
  entries : List (Path.Key × α) := []
deriving Repr

namespace Recent

variable {α : Type}

def capacity : Nat := 500

def get? (r : Recent α) (path : String) : Option α :=
  (r.entries.find? (·.1 = Path.key path)).map (·.2)

def erase (r : Recent α) (path : String) : Recent α :=
  ⟨r.entries.filter (·.1 ≠ Path.key path)⟩

def insert (r : Recent α) (path : String) (value : α) : Recent α :=
  let others := (r.erase path).entries
  let kept := if capacity ≤ others.length then others.drop 1 else others
  ⟨kept ++ [(Path.key path, value)]⟩

def modify (r : Recent α) (path : String) (f : α → α) : Recent α :=
  ⟨r.entries.map fun e => if e.1 = Path.key path then (e.1, f e.2) else e⟩

end Recent
end Restyle
