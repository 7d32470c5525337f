import Restyle.Failure
import Restyle.Text.Utf8
import Restyle.Tool.Diagnostic

/-! # Output of the tool

What a finished run of the tool left behind, and what a failed run means.
-/
namespace Restyle

structure ToolOutput where
  exitCode : Int
  stdout : List UInt8
  stderr : List UInt8
deriving Repr, DecidableEq, Inhabited

namespace ToolOutput

def success (o : ToolOutput) : Bool := o.exitCode = 0

def text (o : ToolOutput) : String := Utf8.toText o.stdout

def errorText (o : ToolOutput) : String := Utf8.toText o.stderr

end ToolOutput

/-- How the tool says that a configuration has no section for a language. -/
def missingLanguageMarker : List Char := "Configuration file(s) do(es) not support".toList

/-- The failure that the first diagnostic of a text stands for, if it is an error with a sound
position. -/
def validation? (stderr : List Char) : Option Failure := do
  let (d, rest) ← Diagnostic.first? stderr
  if d.severity ≠ "error".toList then none
  let line ← Diagnostic.positive? d.line
  let column ← Diagnostic.positive? d.column
  let file := String.ofList (d.file.map fun c => if c = '\\' then '/' else c)
  let name := (Path.fileName? file).getD file
  let head := s!"{name}:{line}:{column}: {String.ofList (Text.trimEnd d.message)}"
  let tail := Text.trimChars rest
  let description := if tail.isEmpty then head else head ++ "\n" ++ String.ofList tail
  return .validation description ⟨file, line - 1, column - 1⟩

/-- The failure that a failed run stands for; `invocation` is the command line. -/
def classify (exitCode : Int) (stdout stderr invocation : String) : Failure :=
  if missingLanguageMarker.isPrefixOf stderr.toList then .unsupportedLanguage (Text.trim stderr)
  else match validation? stderr.toList with
    | some failure => failure
    | none =>
      let diagnostic := if Text.isBlankText stderr then stdout else stderr
      .toolFailure s!"Exit code {exitCode} from {invocation}\n{diagnostic}"

def ToolOutput.classify (o : ToolOutput) (invocation : String) : Failure :=
  Restyle.classify o.exitCode o.text o.errorText invocation

end Restyle
