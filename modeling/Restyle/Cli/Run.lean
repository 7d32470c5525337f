import Restyle.Format.Engine
import Restyle.Settings.Resolve

/-! # Running a request

What the command line does with the host.  All files of a request are read before the first of them
is formatted, and a file that cannot be resolved stops the request before any is read.
-/
namespace Restyle.Cli

open Engine

inductive Fault where
  | settings (fault : SettingsFault)
  | noFiles
  | unresolved (path : String) (fault : FileFault)
  | noConfigFile (file : String)
  | invalidTool (path : String) (f : Failure)
  | noStyle (file : String) (f : Failure)
  | notFormatted (file : String) (f : Failure)
  | failedFiles (count : Nat)
  | unformattedFiles (count : Nat)
deriving Repr, DecidableEq

def fileNoun (count : Nat) : String := if count = 1 then "file" else "files"

def Fault.messages : Fault → List String
  | settings fault => fault.messages
  | noFiles => ["No files were provided."]
  | unresolved path fault => [s!"Error resolving {path}", fault.message]
  | noConfigFile file => [s!"No .clang-format file applies to {file}"]
  | invalidTool path f => [s!"Error validating {path}", f.message]
  | noStyle file f => [s!"Error resolving the style of {file}", f.message]
  | notFormatted file f => [s!"Error formatting {file}", f.message]
  | failedFiles count =>
    if count = 1 then ["Had 1 error formatting."] else [s!"Had {count} errors formatting."]
  | unformattedFiles count =>
    [s!"Found {bold (toString count)} not formatted {fileNoun count}."]

def exitCode : Except Fault Unit → UInt32
  | .ok _ => 0
  | .error _ => 1

def absolute (path : String) : Work String := do return (← get).host.absolute path

def printVersion : Work (Except Fault Unit) := do
  print Args.versionText
  let t ← newToken false
  let missing := "clang-format not found"
  match ← toolPath with
  | none => print missing
  | some path => match ← validate path t with
    | .ok version => print version
    | .error _ => print missing
  return .ok ()

def validatePath (path : String) : Work (Except Fault Unit) := do
  let t ← newToken false
  match ← validate path t with
  | .ok version =>
    print version
    return .ok ()
  | .error f => return .error (.invalidTool path f)

def printConfigPath (file : String) : Work (Except Fault Unit) := do
  let file ← absolute file
  match ← styleFile? file with
  | some config =>
    print config
    return .ok ()
  | none => return .error (.noConfigFile file)

def styleReport (config : Option String) (hints : Option Hints) (s : Style) : JsonValue :=
  .members [("configFile", (config.map JsonValue.text).getD .null),
    ("hints", (hints.map Hints.toJson).getD .null), ("style", s.toJson)]

def printStyle (file : String) : Work (Except Fault Unit) := do
  let file ← absolute file
  let t ← newToken false
  match ← styleFor file t with
  | .error f => return .error (.noStyle file f)
  | .ok s =>
    let config ← styleFile? file
    let hints ← hintsFor file t
    print (styleReport config hints s).pretty
    return .ok ()

/-- A text without the line feed at its end, which printing adds again. -/
def withoutLineEnd (text : String) : String :=
  match text.toList.reverse with
  | '\n' :: rest => String.ofList rest.reverse
  | _ => text

def formatInput (file text : String) : Work (Except Fault Unit) := do
  let file ← absolute file
  let t ← newToken false
  match ← formatNow file (Buffer.ofText text) t with
  | (.error f, _) => return .error (.notFormatted file f)
  | (.ok _, b) =>
    print (withoutLineEnd b.text)
    return .ok ()

/-! ### Several files -/

inductive FileResult where
  | changed (file : String)
  | unchanged
  | failed
deriving Repr, DecidableEq

structure Summary where
  changed : List String
  failures : Nat
deriving Repr, DecidableEq

def Summary.ofResults (results : List FileResult) : Summary :=
  ⟨results.filterMap fun
    | .changed file => some file
    | _ => none, results.countP (· = .failed)⟩

def Summary.check (s : Summary) : Except Fault Unit :=
  if s.failures = 0 then .ok () else .error (.failedFiles s.failures)

/-- The normal forms of paths; the first one that cannot be resolved is a fault. -/
def resolveAll : List String → Work (Except Fault (List String))
  | [] => return .ok []
  | path :: paths => do
    let h := (← get).host
    let path := h.absolute path
    match h.files.canonicalize h.directory path with
    | .error fault => return .error (.unresolved path fault)
    | .ok file =>
      match ← resolveAll paths with
      | .error fault => return .error fault
      | .ok files => return .ok (file :: files)

def startFile (file name : String) : Work (Option Ticket) := do
  match (← get).host.files.read file with
  | .error fault =>
    error s!"Error reading {file}: {fault.message}"
    return none
  | .ok text =>
    let t ← newToken false
    modify fun e => { e with desk := e.desk.setDocument name (Buffer.ofText text) }
    return some (← start name t)

def finishFile (write : Bool) (file : String) (ticket : Ticket) : Work FileResult := do
  match ← finish file ticket with
  | .ok (.applied count) =>
    debug s!"Applied {count} replacements to {file}"
    if write then
      modify fun e =>
        let bytes := Utf8.encode (e.desk.document ticket.document).text
        { e with host := { e.host with files := e.host.files.write file bytes } }
    return .changed file
  | .ok outcome =>
    debug s!"{file}: {outcome.describe}"
    return .unchanged
  | .error _ => return .failed

/-- Begins to format files; each becomes a document with its own number. -/
def startAll (number : Nat) : List String → Work (List (String × Option Ticket))
  | [] => return []
  | file :: files => do
    let ticket ← startFile file (toString number)
    return (file, ticket) :: (← startAll (number + 1) files)

def finishAll (write : Bool) : List (String × Option Ticket) → Work (List FileResult)
  | [] => return []
  | (_, none) :: rest => do return .failed :: (← finishAll write rest)
  | (file, some ticket) :: rest => do
    let result ← finishFile write file ticket
    return result :: (← finishAll write rest)

def runFiles (paths : List String) (write : Bool) : Work (Except Fault Summary) := do
  if paths.isEmpty then return .error .noFiles
  match ← resolveAll paths with
  | .error fault => return .error fault
  | .ok files =>
    let started ← startAll 0 files
    return .ok (.ofResults (← finishAll write started))

def reportFormatted (s : Summary) : Work (Except Fault Unit) := do
  let count := s.changed.length
  print s!"Formatted {bold (toString count)} {fileNoun count}."
  return s.check

def formatFiles (paths : List String) : Work (Except Fault Unit) := do
  match ← runFiles paths true with
  | .error fault => return .error fault
  | .ok s => reportFormatted s

def checkFiles (paths : List String) : Work (Except Fault Unit) := do
  match ← runFiles paths false with
  | .error fault => return .error fault
  | .ok s =>
    s.changed.forM fun file => do
      let mark := boldRed "from"
      print s!"{mark} {file}"
    return s.check.bind fun _ =>
      if s.changed.isEmpty then .ok () else .error (.unformattedFiles s.changed.length)

def act : Args.Action → Work (Except Fault Unit)
  | .format files => formatFiles files
  | .formatInput file text => formatInput file text
  | .check files => checkFiles files
  | .style file => printStyle file
  | .configPath file => printConfigPath file
  | .validatePath path => validatePath path
  | .version => printVersion
  | .help text => do
    print text
    return .ok ()

def run (h : Host) (request : Args.Request) : Except Fault Unit × Host :=
  match request.action with
  | .help text => (.ok (), h.print text)
  | action => match Settings.resolve h request with
    | (.error fault, h) => (.error (.settings fault), h)
    | (.ok settings, h) =>
      let (result, e) := (act action).run { host := h, settings, logsNotices := true }
      (result, e.host)

end Restyle.Cli
