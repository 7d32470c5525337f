import Restyle.Failure
import Restyle.Machine.Shell
import Restyle.Tool.Invocation
import Restyle.Tool.Output

/-! # Runs of programs

A command is started on a machine and watched every ten milliseconds until it has ended, is cancelled
or has reached its time limit, in this order.
-/
namespace Restyle

namespace Disk

def programDirectories : List (List String) := [["usr", "bin"], ["bin"]]

def standard : Disk :=
  let directories := [[], ["bin"], ["usr"], ["usr", "bin"], ["usr", "local"], ["etc"], ["tmp"], ["home"],
    ["root"], ["dev"], ["var"], ["opt"]]
  let programs := programDirectories.flatMap fun d =>
    Program.names.map fun name => (d ++ [name], Node.file [] 0 true)
  { nodes := directories.map (fun d => (d, Node.directory 0)) ++ programs ++
      [(["etc", "passwd"], .file [] 0 false), (["etc", "hosts"], .file [] 0 false),
        (["dev", "null"], .file [] 0 false)] }

def findProgram? (d : Disk) (name : String) : Option (List String) :=
  if name = "" then none
  else (programDirectories.map (· ++ [name])).find? fun names => match d.node? names with
    | some (.file _ _ true) => true
    | _ => false

end Disk

inductive StartFault where
  | notFound
  | permissionDenied
  | notDirectory
  /-- A word of the command holds a zero, with which words end. -/
  | zeroInside
deriving Repr, DecidableEq

def StartFault.message : StartFault → String
  | notFound => "No such file or directory (os error 2)"
  | permissionDenied => "Permission denied (os error 13)"
  | notDirectory => "Not a directory (os error 20)"
  | zeroInside => "nul byte found in provided data"

def StartFault.ofDisk : DiskFault → StartFault
  | .notFound | .notText => notFound
  | .notDirectory => notDirectory
  | .isDirectory => permissionDenied

structure Watch where
  limit : Span
  cancelled : Bool := false
  cancelAfter : Option Nat := none
deriving Repr, DecidableEq

namespace Watch

inductive Finding where
  | ended
  | cancelled
  | timedOut
deriving Repr, DecidableEq

/-- The first look at or after a time; looks are ten milliseconds apart. -/
def lookAt (millis : Nat) : Nat := (millis + 9) / 10 * 10

def finding (w : Watch) (millis : Option Nat) : Finding :=
  let limit := lookAt w.limit.millis
  let cancel := w.cancelAfter.map lookAt
  let before := fun (t : Nat) => t ≤ limit && cancel.all (t ≤ ·)
  if (millis.map fun m => lookAt (m + 1)).any before then .ended
  else if cancel.any (· ≤ limit) then .cancelled
  else .timedOut

end Watch

namespace Machine

def directoryOf (d : Disk) (c : Invocation) : Except StartFault (List String) :=
  match c.directory with
  | none => .ok []
  | some path => match d.get path, d.locate path with
    | .ok (.directory _), .ok names => .ok names
    | .ok (.file _ _ _), _ => .error .notDirectory
    | .error fault, _ => .error (.ofDisk fault)
    | _, .error fault => .error (.ofDisk fault)

def programOf (d : Disk) (directory : List String) (program : String) : Except StartFault String :=
  if program.toList.contains '/' then
    match d.get (Program.seenFrom directory program) with
    | .ok (.file _ _ true) => .ok (((Disk.namesOf program).getLast?).getD "")
    | .ok _ => .error .permissionDenied
    | .error fault => .error (.ofDisk fault)
  else if program = "." ∨ program = ".." then .error .permissionDenied
  else match d.findProgram? program with
    | some _ => .ok program
    | none => .error .notFound

def effectOf (d : Disk) (c : Invocation) (input : Option (List UInt8)) : Except StartFault Effect := do
  if (c.program :: c.directory.getD "" :: c.args).any (·.toList.contains '\x00') then throw .zeroInside
  let directory ← directoryOf d c
  let name ← programOf d directory c.program
  let setting : Setting := ⟨d, directory, some ⟨input.getD [], []⟩⟩
  if name = "sh" then return Shell.program setting c.args
  match Program.alone? name with
  | some program => return program setting c.args
  | none => throw .notFound

/-- The output of a run that has ended; one that was killed has no exit code of its own. -/
def outputOf (e : Effect) : ToolOutput :=
  let code : Int := match e.ending with
    | .exited code => code
    | _ => -1
  ⟨code, e.out.bytes, e.err⟩

def run (d : Disk) (c : Invocation) (input : Option (List UInt8)) (w : Watch) :
    Except Failure ToolOutput :=
  if w.cancelled then .error .cancelled
  else match effectOf d c input with
    | .error fault => .error (.process s!"Error starting {c.display}: {fault.message}")
    | .ok e => match w.finding (if e.ending = .endless then none else some e.millis) with
      | .ended => .ok (outputOf e)
      | .cancelled => .error .cancelled
      | .timedOut => .error (.timedOut w.limit)

end Machine
end Restyle
