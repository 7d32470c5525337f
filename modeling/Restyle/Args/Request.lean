import Restyle.Args.Help
import Restyle.Args.Level
import Restyle.Log.Level
import Restyle.Text.Number
import Restyle.Text.Utf8

/-! # Requests on the command line

What a command line asks for.  An option that is given on both levels counts on the second one.
-/
namespace Restyle.Args

inductive Action where
  | format (files : List String)
  | formatInput (file text : String)
  | check (files : List String)
  | style (file : String)
  | configPath (file : String)
  | validatePath (path : String)
  | version
  | help (text : String)
deriving Repr, DecidableEq

structure Request where
  action : Action
  logLevel : LogLevel := .info
  config : Option String := none
  clangFormat : Option String := none
  timeoutMillis : Option Nat := none
deriving Repr, DecidableEq

inductive Error where
  | refused (fault : Fault)
  | unknownLogLevel (text : String)
  | badTimeout (text : String) (fault : NumberFault)
  | inputNotText (fault : Utf8.Fault)
deriving Repr, DecidableEq

/-- The messages of an error, the outermost first; a refused command line explains itself. -/
def Error.messages : Error → List String
  | refused _ => []
  | unknownLogLevel text => [LogLevel.unknownMessage text]
  | badTimeout text fault =>
    [s!"Expected the timeout to be a number of milliseconds, but found '{text}'.", fault.message]
  | inputNotText fault => ["The text provided on stdin was not valid UTF-8.", fault.message]

/-- The file that standard input stands for.  A word without a dot is an extension. -/
def inputFile (word : String) : String := if word.toList.contains '.' then word else "file." ++ word

/-- What a subcommand and its level ask for; `input` is the standard input. -/
def actionOf (s : Subcommand) (l : Level) (input : List UInt8) : Except Error Action :=
  let file := l.files.headD ""
  match s, l.get? .stdin with
  | .fmt, some word => match Utf8.decode input with
    | .ok text => .ok (.formatInput (inputFile word) text)
    | .error fault => .error (.inputNotText fault)
  | .fmt, none => .ok (.format l.files)
  | .check, _ => .ok (.check l.files)
  | .style, _ => .ok (.style file)
  | .configPath, _ => .ok (.configPath file)
  | .validatePath, _ => .ok (.validatePath file)
  | .version, _ => .ok .version

def given? (top under : Level) (o : ValueOption) : Option String :=
  (under.get? o).orElse fun _ => top.get? o

def logLevelOf (top under : Level) : Except Error LogLevel :=
  if top.verbose || under.verbose then .ok .debug
  else match given? top under .logLevel with
    | none => .ok .info
    | some text => match LogLevel.ofName? text with
      | some l => .ok l
      | none => .error (.unknownLogLevel text)

def timeoutOf (top under : Level) : Except Error (Option Nat) :=
  match given? top under .timeout with
  | none => .ok none
  | some text => match Text.readWord text.toList with
    | .ok n => .ok (some n)
    | .error fault => .error (.badTimeout text fault)

def Request.ofLevels (top : Level) (s : Subcommand) (under : Level) (input : List UInt8) :
    Except Error Request := do
  let action ← actionOf s under input
  let logLevel ← logLevelOf top under
  let timeoutMillis ← timeoutOf top under
  return ⟨action, logLevel, given? top under .config, given? top under .clangFormat, timeoutMillis⟩

def Request.read (words : List String) (input : List UInt8) : Except Error Request :=
  if words = [] ∨ words = ["help"] ∨ words = ["--help"] then .ok { action := .help helpText }
  else if words = ["-v"] ∨ words = ["-V"] ∨ words = ["--version"] then .ok { action := .version }
  else match Level.readTop {} words with
    | .ok (top, s, under) => Request.ofLevels top s under input
    | .error fault => .error (.refused fault)

end Restyle.Args
