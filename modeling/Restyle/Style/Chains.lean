import Restyle.File.Kind
import Restyle.File.Store

/-! # Chains of configuration files

The configuration files that apply in a directory are its own and those of the directories above,
nearest first.  `walk` finds them afresh; `Chains.find` remembers the chains of at most a hundred
directories.
-/
namespace Restyle

def configFilesIn (isFile : String → Bool) (directory : String) : List String :=
  (configFileNames.map (Path.join directory)).filter isFile

def walk (isFile : String → Bool) (directories : List String) : List String :=
  directories.flatMap (configFilesIn isFile)

/-- Where the search for configuration files starts: at the path itself if it is a directory, else
above it. -/
def searchStart? (isDirectory : String → Bool) (path : String) : Option String :=
  if isDirectory path then some path else Path.parent? path

structure Chains where
  entries : List (Path.Key × List String) := []
deriving Repr, DecidableEq

namespace Chains

def capacity : Nat := 100

def get? (c : Chains) (directory : String) : Option (List String) :=
  (c.entries.find? (·.1 = Path.key directory)).map (·.2)

/-- Remembers a chain; the oldest one makes room. -/
def insert (c : Chains) (directory : String) (chain : List String) : Chains :=
  let kept := if capacity ≤ c.entries.length then c.entries.drop 1 else c.entries
  ⟨kept ++ [(Path.key directory, chain)]⟩

/-- The chain of the first of some directories, each of which lies above the one before it. -/
def find (isFile : String → Bool) (c : Chains) : List String → List String × Chains
  | [] => ([], c)
  | directory :: above => match c.get? directory with
    | some chain => (chain, c)
    | none =>
      let (upper, c) := find isFile c above
      let chain := configFilesIn isFile directory ++ upper
      (chain, c.insert directory chain)

def configFiles (files : FileStore) (c : Chains) (path : String) : List String × Chains :=
  match searchStart? files.isDirectory path with
  | some directory => find files.isFile c (FileStore.ancestors directory)
  | none => ([], c)

end Chains
end Restyle
