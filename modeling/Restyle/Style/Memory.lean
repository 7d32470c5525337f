import Restyle.Failure
import Restyle.Style.Basic
import Restyle.Style.Chains
import Restyle.Style.Recent

/-! # Remembered styles

The style of a file is remembered together with everything that it depends on.  Events about
configuration files make all remembered styles out of date.
-/
namespace Restyle

/-- What the style of a file depends on: its configuration files and the tool, with their stamps, and
the number of events about configuration files. -/
structure DependencyKey where
  configFiles : List (String × Option Nat)
  tool : Option (String × Option Nat)
  generation : Nat
deriving Repr

namespace DependencyKey

/-- A stamped path up to its spelling. -/
def stamped (f : String × Option Nat) : Path.Key × Option Nat := (Path.key f.1, f.2)

def same (a b : DependencyKey) : Bool :=
  a.configFiles.map stamped = b.configFiles.map stamped && a.tool.map stamped = b.tool.map stamped &&
    a.generation = b.generation

end DependencyKey

structure StyleMemory where
  chains : Chains := {}
  generation : Nat := 0
  styles : Recent (DependencyKey × Except Failure Style) := {}
  lastGood : Recent Style := {}

namespace StyleMemory

def concerning (events : List FileEvent) : List FileEvent :=
  events.filter fun e => e.paths.any isConfigFile

/-- Whether a configuration file was added, removed or replaced. -/
def chainsChanged (events : List FileEvent) : Bool :=
  (concerning events).any (!·.isContentChange)

def afterEvents (m : StyleMemory) (events : List FileEvent) : StyleMemory :=
  let chains := if chainsChanged events then {} else m.chains
  let generation := if (concerning events).isEmpty then m.generation else m.generation + 1
  { m with chains, generation }

def remembered? (m : StyleMemory) (path : String) (key : DependencyKey) :
    Option (Except Failure Style) :=
  (m.styles.get? path).bind fun e => if e.1.same key then some e.2 else none

/-- Remembers a result.  Cancelled requests have none. -/
def remember (m : StyleMemory) (path : String) (key : DependencyKey)
    (result : Except Failure Style) : StyleMemory :=
  match result with
  | .error .cancelled => m
  | .error f => { m with styles := m.styles.insert path (key, .error f) }
  | .ok s => { m with lastGood := m.lastGood.insert path s, styles := m.styles.insert path (key, .ok s) }

end StyleMemory
end Restyle
