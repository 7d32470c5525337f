import Restyle.File.Store
import Restyle.Tool.Invocation
import Restyle.Tool.Output

/-! # Runs of the tool

A tool is whatever answers calls.  Its answer may depend on the files, on the number of calls before
this one, and on the call.
-/
namespace Restyle

structure Call where
  invocation : Invocation
  input : Option (List UInt8)
deriving Repr, DecidableEq, Inhabited

structure Reply where
  result : Except Failure ToolOutput
  /-- The answer comes only after other things have happened. -/
  waits : Bool := false
  /-- A tool that waits gives up once its call is cancelled. -/
  heedsCancellation : Bool := true

abbrev Tool := FileStore → Nat → Call → Reply

end Restyle
