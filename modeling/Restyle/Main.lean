import Restyle.Cli.Run

/-! # The command line

Reads the files that a request may need into a host, runs the request on it, writes what it printed
and the files that it changed.  A host that is made here has no tool to call.
-/
namespace Restyle.CommandLine

partial def readAll (input : IO.FS.Stream) (before : ByteArray) : IO ByteArray := do
  let more ← input.read 65536
  if more.isEmpty then return before else readAll input (before ++ more)

/-- The paths that a word of a command line may need: its own and those of configuration files. -/
def neededPaths (directory word : String) : List String :=
  let word := ((word.splitOn "=").getLast?).getD word
  let path := if Path.isAbsolute word then word else Path.join directory word
  let path := Path.normalize path
  path :: (FileStore.ancestors path).flatMap fun d => configFileNames.map (Path.join d)

def load (h : Host) (path : String) : IO Host := do
  match ← (IO.FS.readBinFile path).toBaseIO with
  | .ok bytes => return { h with files := h.files.write path bytes.toList }
  | .error _ => return h

def hostOf (words : List String) : IO Host := do
  let directory := (← IO.currentDir).toString
  let start := Host.setDirectory {} directory
  let start := match ← IO.getEnv Settings.pathVariable with
    | some value => if Text.isBlankText value then start else start.setVariable Settings.pathVariable value
    | none => start
  let paths := (words.flatMap (neededPaths directory)).eraseDups
  let h ← paths.foldlM load start
  return { h with files := h.files.dropEvents }

def save (h : Host) : IO Unit :=
  h.files.events.forM fun e => match e with
    | .created path | .changed path => match h.files.get? path with
      | some f => IO.FS.writeBinFile path ⟨f.bytes.toArray⟩
      | none => return
    | _ => return

def complain (l : LogLevel) (messages : List String) : IO Unit := do
  unless l = .silent || messages.isEmpty do IO.eprintln (": ".intercalate messages)

def run (words : List String) : IO UInt32 := do
  let input ← if words.any ("--stdin".toList.isPrefixOf ·.toList) then
      readAll (← IO.getStdin) ByteArray.empty
    else pure ByteArray.empty
  match Args.Request.read words input.toList with
  | .error fault =>
    complain .info fault.messages
    return 2
  | .ok request =>
    let (result, h) := Cli.run { ← hostOf words with logLevel := request.logLevel } request
    save h
    h.out.forM IO.println
    h.err.forM IO.eprintln
    if let .error fault := result then complain request.logLevel fault.messages
    return Cli.exitCode result

end Restyle.CommandLine

def main (words : List String) : IO UInt32 := Restyle.CommandLine.run words
