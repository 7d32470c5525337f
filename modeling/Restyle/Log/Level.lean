/-! # Log levels

How much is logged.  A level lets every message through that is at most as detailed.
-/
namespace Restyle

inductive LogLevel where
  | silent
  | error
  | warn
  | info
  | debug
deriving Repr, DecidableEq, Inhabited

namespace LogLevel

def name : LogLevel → String
  | silent => "silent"
  | error => "error"
  | warn => "warn"
  | info => "info"
  | debug => "debug"

def all : List LogLevel := [silent, error, warn, info, debug]

def rank : LogLevel → Nat
  | silent => 0
  | error => 1
  | warn => 2
  | info => 3
  | debug => 4

def allows (l message : LogLevel) : Bool := message ≠ silent && message.rank ≤ l.rank

def isDebug (l : LogLevel) : Bool := l = debug

def ofName? (text : String) : Option LogLevel :=
  all.find? fun l => l.name.toList = text.toList.map Char.toLower

def unknownMessage (text : String) : String :=
  s!"Unknown log level '{text}'. Expected one of: silent, error, warn, info, debug"

end LogLevel
end Restyle
