import Restyle.Log.Level
import Restyle.Tool.Reply

/-! # The host

What surrounds the program: files, environment variables, programs that can be found by name, the
working directory, and what was written and called so far.
-/
namespace Restyle

structure Host where
  files : FileStore := {}
  environment : List (String × String) := []
  executables : List (String × String) := []
  searches : Nat := 0
  directory : String := "/"
  logLevel : LogLevel := .info
  out : Array String := #[]
  err : Array String := #[]
  calls : Array Call := #[]
  tool : Option Tool := none

def setPair (name value : String) (pairs : List (String × String)) : List (String × String) :=
  (name, value) :: pairs.filter (·.1 ≠ name)

def errorWord : String := "\x1b[38;5;9m\x1b[1mError\x1b[0m"

def bold (word : String) : String := "\x1b[1m" ++ word ++ "\x1b[0m"

def boldRed (word : String) : String := "\x1b[38;5;9m\x1b[1m" ++ word ++ "\x1b[0m"

namespace Host

def valueOf? (h : Host) (name : String) : Option String :=
  (h.environment.find? (·.1 = name)).map (·.2)

def executable? (h : Host) (name : String) : Option String :=
  (h.executables.find? (·.1 = name)).map (·.2)

def setVariable (h : Host) (name value : String) : Host :=
  { h with environment := setPair name value h.environment }

/-- Makes a program findable by name; its file is written empty. -/
def addExecutable (h : Host) (name path : String) : Host :=
  { h with files := h.files.write path [], executables := setPair name path h.executables }

def setDirectory (h : Host) (path : String) : Host :=
  { h with files := h.files.addDirectory path, directory := path }

def print (h : Host) (line : String) : Host := { h with out := h.out.push line }

def printError (h : Host) (line : String) : Host := { h with err := h.err.push line }

/-- Logs a line that only the debug level shows. -/
def debug (h : Host) (line : String) : Host :=
  if h.logLevel.isDebug then h.printError ("[DEBUG] " ++ line) else h

def error (h : Host) (line : String) : Host :=
  if h.logLevel.allows .error then h.printError (errorWord ++ " " ++ line) else h

def absolute (h : Host) (path : String) : String :=
  if Path.isAbsolute path then path else Path.join h.directory path

end Host
end Restyle
