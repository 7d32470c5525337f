import Restyle.Args.Request
import Restyle.Host.Basic
import Restyle.Settings.Basic

/-! # Resolved settings

The command line wins over the settings file, that over the environment variables, and those over
the defaults.
-/
namespace Restyle

inductive SettingsFault where
  | unreadable (path : String) (fault : FileFault)
  | malformed (path : String)
  | noTime
deriving Repr, DecidableEq

namespace SettingsFault

def malformedText : String := "The text holds no settings."

def messages : SettingsFault → List String
  | unreadable path fault => [s!"Error reading settings file at {path}", fault.message]
  | malformed path => [s!"Error parsing settings file at {path}", malformedText]
  | noTime => ["The timeout must be greater than 0 milliseconds."]

end SettingsFault

namespace Settings

def pathVariable : String := "CLANG_FORMAT_PATH"

def load (h : Host) (path : String) : Except SettingsFault Settings :=
  match h.files.read path with
  | .error fault => .error (.unreadable path fault)
  | .ok text => match read? text with
    | some s => .ok s
    | none => .error (.malformed path)

def override (s : Settings) (h : Host) (request : Args.Request) : Except SettingsFault Settings :=
  let path := (request.clangFormat.orElse fun _ => s.clangFormatPath).orElse fun _ =>
    h.valueOf? pathVariable
  let timeout := request.timeoutMillis.getD s.timeoutMillis
  if timeout = 0 then .error .noTime
  else .ok { s with clangFormatPath := path, timeoutMillis := timeout }

def resolve (h : Host) (request : Args.Request) : Except SettingsFault Settings × Host :=
  match request.config with
  | none => (override {} h request, h)
  | some config =>
    let path := h.absolute config
    ((load h path).bind fun s => override s h request, h.debug s!"Reading settings from {path}")

end Settings
end Restyle
