import Restyle.Text.Utf8

/-! # The disk

Directories and files of a machine by the names on the way to them.  Unlike in a `FileStore`, a path
leads through directories that must be there, and two dots lead up from where they stand.
-/
namespace Restyle

inductive Node where
  | directory (stamp : Nat)
  | file (bytes : List UInt8) (stamp : Nat) (runs : Bool)
deriving Repr, DecidableEq

inductive DiskFault where
  | notFound
  | notDirectory
  | isDirectory
  | notText
deriving Repr, DecidableEq

structure Disk where
  nodes : List (List String × Node) := [([], .directory 0)]
  nextStamp : Nat := 1
deriving Repr, DecidableEq

namespace Disk

/-- The names in a path.  One dot stands for where it is, also at the end, where a slash stands for it. -/
def namesOf (path : String) : List String :=
  let names := (path.splitOn "/").filter (· ≠ "")
  if path.toList.getLast? = some '/' then names ++ ["."] else names

def node? (d : Disk) (names : List String) : Option Node :=
  (d.nodes.find? (·.1 = names)).map (·.2)

/-- Where names lead from a place.  Every name but the last must be that of a directory. -/
def follow (d : Disk) (place : List String) : List String → Except DiskFault (List String)
  | [] => .ok place
  | name :: names => match d.node? place with
    | none => .error .notFound
    | some (.file _ _ _) => .error .notDirectory
    | some (.directory _) =>
      if name = "." then d.follow place names
      else if name = ".." then d.follow place.dropLast names
      else d.follow (place ++ [name]) names

def locate (d : Disk) (path : String) : Except DiskFault (List String) := d.follow [] (namesOf path)

def get (d : Disk) (path : String) : Except DiskFault Node := do
  let names ← d.locate path
  match d.node? names with
  | some n => return n
  | none => throw .notFound

def isFile (d : Disk) (path : String) : Bool :=
  match d.get path with
  | .ok (.file _ _ _) => true
  | _ => false

def isDirectory (d : Disk) (path : String) : Bool :=
  match d.get path with
  | .ok (.directory _) => true
  | _ => false

def stamp? (d : Disk) (path : String) : Option Nat :=
  match d.get path with
  | .ok (.directory stamp) => some stamp
  | .ok (.file _ stamp _) => some stamp
  | .error _ => none

def pathOf (names : List String) : String := "/" ++ "/".intercalate names

def canonicalize (d : Disk) (path : String) : Except DiskFault String := do
  let names ← d.locate path
  match d.node? names with
  | some _ => return pathOf names
  | none => throw .notFound

def readBytes (d : Disk) (path : String) : Except DiskFault (List UInt8) := do
  match ← d.get path with
  | .file bytes _ _ => return bytes
  | .directory _ => throw .isDirectory

def readText (d : Disk) (path : String) : Except DiskFault String := do
  match Utf8.decode (← d.readBytes path) with
  | .ok text => return text
  | .error _ => throw .notText

def put (d : Disk) (names : List String) (n : Node) : Disk :=
  { d with nodes := (names, n) :: d.nodes.filter (·.1 ≠ names) }

def add (d : Disk) (names : List String) (n : Nat → Node) : Disk :=
  let stamp := d.nextStamp
  let d := if (d.node? names).isSome then d else d.put names.dropLast (.directory stamp)
  { d.put names (n stamp) with nextStamp := stamp + 1 }

def write (d : Disk) (path : String) (bytes : List UInt8) : Except DiskFault Disk := do
  let names ← d.locate path
  match d.node? names with
  | some (.directory _) => throw .isDirectory
  | _ => return d.add names fun stamp => .file bytes stamp false

def addDirectories (d : Disk) (place : List String) : List String → Except DiskFault Disk
  | [] => .ok d
  | name :: names =>
    if name = "." then d.addDirectories place names
    else if name = ".." then d.addDirectories place.dropLast names
    else
      let next := place ++ [name]
      match d.node? next with
      | some (.directory _) => d.addDirectories next names
      | some (.file _ _ _) => .error .notDirectory
      | none => (d.add next fun stamp => .directory stamp).addDirectories next names

def makeDirectory (d : Disk) (path : String) : Except DiskFault Disk :=
  d.addDirectories [] (namesOf path)

end Disk
end Restyle
