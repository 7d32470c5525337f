import Restyle.File.Path
import Restyle.Text.Blank

/-! # Command lines

The command lines of the tool, and the form in which messages show them.
-/
namespace Restyle

structure Invocation where
  program : String
  args : List String := []
  directory : Option String := none
deriving Repr, DecidableEq, Inhabited

namespace Invocation

/-- A word of a command line; it is put in quotes if it is empty or has blanks. -/
def quoteIfNeeded (word : String) : String :=
  if word.isEmpty || word.toList.any Text.isBlank then "\"" ++ word ++ "\"" else word

def display (c : Invocation) : String :=
  " ".intercalate ((c.program :: c.args).map quoteIfNeeded)

def withArgs (c : Invocation) (args : List String) : Invocation := { c with args := c.args ++ args }

def isShellScript (path : String) : Bool :=
  match Path.extension? path with
  | some extension =>
    let lower := extension.toList.map Char.toLower
    lower = ['c', 'm', 'd'] || lower = ['b', 'a', 't']
  | none => false

/-- The command that runs the tool.  Windows runs shell scripts through its command interpreter. -/
def ofTool (tool : String) (windows : Bool) : Invocation :=
  let base : Invocation :=
    if windows && isShellScript tool then ⟨"cmd.exe", ["/c", tool], none⟩ else ⟨tool, [], none⟩
  base.withArgs ["--fno-color-diagnostics"]

def assumeFile (file : String) : String := "--assume-filename=" ++ file

def format (tool file : String) (windows : Bool) : Invocation :=
  (ofTool tool windows).withArgs ["--output-replacements-xml", assumeFile file]

def dumpConfig (tool file : String) (windows : Bool) : Invocation :=
  (ofTool tool windows).withArgs ["--dump-config", assumeFile file]

def version (tool : String) (windows : Bool) : Invocation :=
  (ofTool tool windows).withArgs ["--version"]

end Invocation
end Restyle
