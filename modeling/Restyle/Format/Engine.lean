import Restyle.Edit.Listing
import Restyle.Format.Desk
import Restyle.Host.Basic
import Restyle.Notice.Basic
import Restyle.Settings.Basic
import Restyle.Style.Dump
import Restyle.Style.HintMemory
import Restyle.Style.Memory
import Restyle.Text.Part

/-! # The engine

Everything that format and style requests work on: the host, the settings, what is remembered about
the tool, styles and hints, the notifier, and the desk.
-/
namespace Restyle

structure Engine where
  host : Host := {}
  settings : Settings := {}
  foundTool : Option String := none
  styles : StyleMemory := {}
  hints : HintMemory := {}
  notifier : Notifier := {}
  notices : Array NoticeEvent := #[]
  logsNotices : Bool := false
  desk : Desk := {}
  /-- What happens on the desk while the tool keeps a call waiting. -/
  agenda : List DeskStep := []
  /-- The desk after each step of the agenda. -/
  seen : List Desk := []

abbrev Work := StateM Engine

namespace Engine

def debug (line : String) : Work Unit := modify fun e => { e with host := e.host.debug line }

def error (line : String) : Work Unit := modify fun e => { e with host := e.host.error line }

def print (line : String) : Work Unit := modify fun e => { e with host := e.host.print line }

def stage (s : Stage) (file : String) : Work Unit := debug s!"{s.name}: {file}"

def isCancelled (t : Token) : Work Bool := do return (← get).desk.isCancelled t

def newToken (cancelled : Bool) : Work Token :=
  modifyGet fun e =>
    let (t, desk) := e.desk.newToken cancelled
    (t, { e with desk })

def runAgenda : Work Unit := modify fun e =>
  let (desk, seen) := e.agenda.foldl (fun (acc : Desk × List Desk) s =>
    let d := acc.1.step s
    (d, acc.2 ++ [d])) (e.desk, e.seen)
  { e with desk, seen, agenda := [] }

def announce (events : List NoticeEvent) : Work Unit := do
  modify fun e => { e with notices := events.foldl Array.push e.notices }
  if (← get).logsNotices then
    events.forM fun
      | .shown n => error n.line
      | .expired n => debug s!"Notification {n.id} expired."

def notify (file : String) (f : Failure) : Work Notice := do
  let (notifier, notice, events) := (← get).notifier.notify file f
  modify fun e => { e with notifier }
  announce events
  return notice

def clearNotice : Work Unit := do
  let (notifier, events) := (← get).notifier.clear
  modify fun e => { e with notifier }
  announce events

/-! ### Calls of the tool -/

/-- Calls the tool, unless the token is cancelled. -/
def call (c : Invocation) (input : Option (List UInt8)) (t : Token) :
    Work (Except Failure ToolOutput) := do
  if ← isCancelled t then return .error .cancelled
  let before := (← get).host
  modify fun e => { e with host := { e.host with calls := e.host.calls.push ⟨c, input⟩ } }
  match before.tool with
  | none => return .error (.process s!"No process handler for {c.display}")
  | some tool =>
    let reply := tool before.files before.calls.size ⟨c, input⟩
    if reply.waits then
      runAgenda
      if reply.heedsCancellation && (← isCancelled t) then return .error .cancelled
    return reply.result

/-- Calls the tool and logs how that went.  The host has no clock, so no time passes. -/
def invoke (c : Invocation) (input : Option (List UInt8)) (t : Token) :
    Work (Except Failure ToolOutput) := do
  debug s!"Running command: {c.display}"
  let result ← call c input t
  match result with
  | .ok run => debug s!"Exited with code {run.exitCode} after 0ms"
  | .error f => debug s!"Command failed after 0ms: {f.message}"
  return result

def inDirectoryOf (file : String) (c : Invocation) : Work Invocation := do
  let files := (← get).host.files
  return { c with directory := (Path.parent? file).filter files.isDirectory }

/-! ### Finding the tool -/

/-- A path of the tool as a user gave it: without blanks around it, seen from the working
directory. -/
def customPath (path : String) : Work String := do
  return (← get).host.absolute (Text.trim path)

/-- Finds the tool by name.  It is searched for only while no found file is there. -/
def findByName : Work (Option String) := do
  let e ← get
  match e.foundTool.filter e.host.files.isFile with
  | some path => return some path
  | none =>
    let found := e.host.executable? "clang-format"
    set { e with foundTool := found, host := { e.host with searches := e.host.searches + 1 } }
    if let some path := found then debug s!"Found clang-format in the PATH: {path}"
    return found

def toolPath : Work (Option String) := do
  match (← get).settings.clangFormatPath with
  | none => findByName
  | some given =>
    let path ← customPath given
    if (← get).host.files.isFile path then return some path
    debug s!"Custom clang-format path does not exist: {path}"
    return none

def invalidPath : Failure := .toolFailure "Invalid clang-format path"

def validate (given : String) (t : Token) : Work (Except Failure String) := do
  let path ← customPath given
  unless (← get).host.files.isFile path do return .error invalidPath
  debug s!"Validating path: {path}"
  let command := Invocation.version path false
  match ← invoke command none t with
  | .error .cancelled => return .error .cancelled
  | .error (.timedOut limit) => return .error (.timedOut limit)
  | .error _ => return .error invalidPath
  | .ok run =>
    if !run.success then
      return .error (.toolFailure s!"Exit code {run.exitCode} from {command.display}")
    if Text.hasPart run.text.toList "clang-format".toList then return .ok (Text.trim run.text)
    return .error invalidPath

/-! ### Styles -/

def configFiles (path : String) : Work (List String) :=
  modifyGet fun e =>
    let (found, chains) := e.styles.chains.configFiles e.host.files path
    (found, { e with styles := { e.styles with chains } })

def isConfigured (path : String) : Work Bool := do
  return !(← configFiles path).isEmpty

def styleFile? (path : String) : Work (Option String) := do
  return (← configFiles path).head?

def dependencyKey (path : String) : Work DependencyKey := do
  let configs ← configFiles path
  let files := (← get).host.files
  let tool ← toolPath
  return ⟨configs.map fun c => (c, files.stamp? c), tool.map fun p => (p, files.stamp? p),
    (← get).styles.generation⟩

def computeStyle (path : String) (key : DependencyKey) (t : Token) : Work (Except Failure Style) := do
  if key.configFiles.isEmpty then return .error .notConfigured
  match key.tool with
  | none => return .error .toolNotFound
  | some (tool, _) =>
    let command ← inDirectoryOf path (Invocation.dumpConfig tool path false)
    match ← invoke command none t with
    | .error f => return .error f
    | .ok run =>
      if !run.success then return .error (run.classify command.display)
      return (Style.ofDump run.text).mapError .decode

/-- The style of a file.  A result, also a failure, is used again until the key changes. -/
def styleFor (path : String) (t : Token) : Work (Except Failure Style) := do
  let key ← dependencyKey path
  match (← get).styles.remembered? path key with
  | some result => return result
  | none =>
    let result ← computeStyle path key t
    modify fun e => { e with styles := e.styles.remember path key result }
    return result

def handleEvents (events : List FileEvent) : Work Unit := do
  if StyleMemory.chainsChanged events then
    debug "Configuration files were added or removed. Clearing the cache."
  modify fun e => { e with styles := e.styles.afterEvents events }

/-! ### Requests -/

def reason? (file : String) (t : Token) : Work (Except Failure (Option Reason)) := do
  if !(← get).settings.enabled then return .ok (some .disabled)
  if isConfigFile file then return .ok (some .configurationFile)
  if !(← isConfigured file) then return .ok (some .notConfigured)
  match ← styleFor file t with
  | .ok s =>
    if s.language? = some "Cpp" && !isCppFile file then
      return .ok (some (.languageMismatch "Cpp"))
    return .ok none
  | .error .notConfigured => return .ok (some .notConfigured)
  | .error (.unsupportedLanguage message) => return .ok (some (.unsupportedLanguage message))
  | .error f => return .error f

/-- Whether a file may be formatted; `ifBroken` is the answer if its configuration is broken. -/
def isFormattable (file : String) (ifBroken : Bool) (t : Token) : Work Bool := do
  match ← reason? file t with
  | .ok reason => return reason.isNone
  | .error f => return f.isValidation && ifBroken

def requestEdit (file : String) (source : List UInt8) (stamp : Nat) (t : Token) :
    Work (Except Failure Prepared) := do
  stage .resolving file
  match ← toolPath with
  | none => return .error .toolNotFound
  | some tool =>
    let command ← inDirectoryOf file (Invocation.format tool file false)
    stage .invoking file
    match ← invoke command (some source) t with
    | .error f => return .error f
    | .ok run =>
      if !run.success then return .error (run.classify command.display)
      stage .decoding file
      match Response.decode run.text with
      | .error fault => return .error (.decode fault)
      | .ok response =>
        if response.incompleteFormat then
          debug s!"clang-format reported an incomplete format for {file}"
        return .ok (.edit ⟨source, stamp, response⟩)

def prepare (file : String) (source : List UInt8) (stamp : Nat) (t : Token) :
    Work (Except Failure Prepared) := do
  stage .styleCheck file
  match ← reason? file t with
  | .error f => return .error f
  | .ok (some reason) =>
    debug s!"Not formatting {file}: {reason.describe}"
    return .ok (.done (.notApplicable reason))
  | .ok none => requestEdit file source stamp t

/-- Applies an edit, as `PreparedEdit.apply` does, and logs how far it has come. -/
def apply (file : String) (edit : PreparedEdit) (b : Buffer) :
    Work (Except Failure Outcome × Buffer) := do
  if b.stamp ≠ edit.stamp then
    debug s!"Discarding the result for {file} because the document changed."
    return (.ok .stale, b)
  if edit.response.isEmpty then
    stage .done file
    return (.ok .noChanges, b)
  stage .locating file
  stage .applying file
  match applyReplacements edit.source b edit.response with
  | (b, none) =>
    stage .done file
    return (.ok (.applied edit.response.size), b)
  | (b, some cause) => return (.error (.decode (.unapplicable cause)), b)

/-- Turns silent failures into outcomes and shows the others. -/
def report (file : String) (result : Except Failure Outcome) : Work (Except Failure Outcome) := do
  match result with
  | .ok outcome => return .ok outcome
  | .error .cancelled =>
    debug s!"Formatting {file} was cancelled."
    return .ok .cancelled
  | .error .notConfigured => return .ok (.notApplicable .notConfigured)
  | .error (.unsupportedLanguage message) =>
    return .ok (.notApplicable (.unsupportedLanguage message))
  | .error f =>
    debug s!"Error formatting {file}: {f.describe}"
    let _ ← notify file f
    return .error f

def formatNow (file : String) (b : Buffer) (t : Token) :
    Work (Except Failure Outcome × Buffer) := do
  clearNotice
  match ← prepare file (Utf8.encode b.text) b.stamp t with
  | .ok (.edit edit) =>
    let (result, b) ← apply file edit b
    return (← report file result, b)
  | .ok (.done outcome) => return (← report file (.ok outcome), b)
  | .error f => return (← report file (.error f), b)

/-! ### Requests in the background -/

def start (document : String) (t : Token) : Work Ticket := do
  clearNotice
  modifyGet fun e =>
    let (ticket, desk) := e.desk.start document t
    (ticket, { e with desk })

/-- Applies a prepared result to the document of its request.  Nothing, if the request was cancelled. -/
def land (file : String) (ticket : Ticket) (result : Except Failure Prepared) :
    Work (Except Failure Outcome) := do
  match result with
  | .ok (.edit edit) =>
    let desk := (← get).desk
    if desk.isCancelled ticket.token then return .ok .cancelled
    let (outcome, b) ← apply file edit (desk.document ticket.document)
    modify fun e => { e with desk := e.desk.setDocument ticket.document b }
    return outcome
  | .ok (.done outcome) => return .ok outcome
  | .error f => return .error f

/-- Ends a request with its prepared result.  Its entry goes last, after the report. -/
def conclude (file : String) (ticket : Ticket) (result : Except Failure Prepared) :
    Work (Except Failure Outcome) := do
  let outcome ← report file (← land file ticket result)
  modify fun e => { e with desk := e.desk.unregister ticket.id }
  return outcome

def finish (file : String) (ticket : Ticket) : Work (Except Failure Outcome) := do
  conclude file ticket (← prepare file ticket.source ticket.stamp ticket.token)

/-! ### Hints -/

/-- The hints for a file, or the last good ones while its configuration is broken. -/
def hintsFor (file : String) (t : Token) : Work (Option Hints) := do
  if !(← isFormattable file true t) then
    modify fun e => { e with hints := e.hints.erase file }
    return none
  match ← styleFor file t with
  | .ok s =>
    let h := Hints.ofStyle s
    modify fun e => { e with hints := HintMemory.succeed e.hints file h }
    return some h
  | .error (.validation _ _) =>
    modifyGet fun e =>
      let (h, hints) := HintMemory.fail e.hints e.settings.fallback file
      (h, { e with hints })
  | .error _ => return none

end Engine
end Restyle
