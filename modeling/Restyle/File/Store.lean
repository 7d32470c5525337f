import Restyle.File.Path
import Restyle.Text.Utf8

/-! # Stores of files

Files by path, with the directories above them.  Every write and every rename stamps the file with a
number that was never used before, and is recorded as an event.
-/
namespace Restyle

inductive FileEvent where
  | created (path : String)
  | changed (path : String)
  | deleted (path : String)
  | renamed (source target : String)
  | moved (source target : String)
  | copied (source target : String)
deriving Repr, DecidableEq

namespace FileEvent

def paths : FileEvent → List String
  | created p | changed p | deleted p => [p]
  | renamed s t | moved s t | copied s t => [s, t]

def isContentChange : FileEvent → Bool
  | changed _ => true
  | _ => false

end FileEvent

structure StoredFile where
  path : Path.Key
  bytes : List UInt8
  stamp : Nat
deriving Repr, DecidableEq

inductive FileFault where
  | missing (path : String)
  | nothingAt (path : String)
  | notText (fault : Utf8.Fault)
deriving Repr, DecidableEq

def FileFault.message : FileFault → String
  | missing path => s!"Could not find file at path {path}"
  | nothingAt path => s!"Path not found: {path}"
  | notText fault => fault.message

structure FileStore where
  files : List StoredFile := []
  directories : List Path.Key := [Path.key "/"]
  nextStamp : Nat := 1
  events : List FileEvent := []
deriving Repr

namespace FileStore

def find? (s : FileStore) (k : Path.Key) : Option StoredFile := s.files.find? (·.path = k)

def get? (s : FileStore) (path : String) : Option StoredFile :=
  s.find? (Path.key (Path.normalize path))

def isFile (s : FileStore) (path : String) : Bool := (s.get? path).isSome

def isDirectory (s : FileStore) (path : String) : Bool :=
  s.directories.contains (Path.key (Path.normalize path))

def stamp? (s : FileStore) (path : String) : Option Nat := (s.get? path).map (·.stamp)

def read (s : FileStore) (path : String) : Except FileFault String :=
  match s.get? path with
  | none => .error (.missing path)
  | some f => (Utf8.decode f.bytes).mapError .notText

/-- The paths above and including a path, the longest first; each is shorter than the one before it,
so their number is bounded by the length of the text. -/
def ancestorsUpTo : Nat → String → List String
  | 0, _ => []
  | n + 1, path => path :: match Path.parent? path with
    | some p => ancestorsUpTo n p
    | none => []

def ancestors (path : String) : List String := ancestorsUpTo (path.length + 1) path

/-- Adds directories, the longest path first, up to the first one that is known. -/
def addDirectories (known : List Path.Key) : List String → List Path.Key
  | [] => known
  | p :: ps => if known.contains (Path.key p) then known else addDirectories (Path.key p :: known) ps

def addDirectory (s : FileStore) (path : String) : FileStore :=
  { s with directories := addDirectories s.directories (ancestors path) }

def addParents (s : FileStore) (path : String) : FileStore :=
  match Path.parent? path with
  | some p => s.addDirectory p
  | none => s

def put (s : FileStore) (f : StoredFile) : FileStore :=
  { s with files := f :: s.files.filter (·.path ≠ f.path) }

def write (s : FileStore) (path : String) (bytes : List UInt8) : FileStore :=
  let path := Path.normalize path
  let k := Path.key path
  let event := if (s.find? k).isSome then FileEvent.changed path else FileEvent.created path
  let written := (s.addParents path).put ⟨k, bytes, s.nextStamp⟩
  { written with nextStamp := s.nextStamp + 1, events := s.events ++ [event] }

def remove (s : FileStore) (path : String) : FileStore :=
  let k := Path.key path
  if (s.find? k).isSome then
    { s with files := s.files.filter (·.path ≠ k), events := s.events ++ [.deleted path] }
  else s

def rename (s : FileStore) (source target : String) : FileStore :=
  let k := Path.key source
  match s.find? k with
  | none => s
  | some f =>
    let without := { s with files := s.files.filter (·.path ≠ k) }
    let moved := (without.addParents target).put ⟨Path.key target, f.bytes, s.nextStamp⟩
    { moved with nextStamp := s.nextStamp + 1, events := s.events ++ [.renamed source target] }

/-- The normal form of a path seen from a directory, if there is something. -/
def canonicalize (s : FileStore) (directory path : String) : Except FileFault String :=
  let path := Path.normalize (if Path.isAbsolute path then path else Path.join directory path)
  if s.isFile path || s.isDirectory path then .ok path else .error (.nothingAt path)

def dropEvents (s : FileStore) : FileStore := { s with events := [] }

end FileStore
end Restyle
