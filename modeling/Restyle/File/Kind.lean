import Restyle.File.Path

/-! # Kinds of files

Configuration files and C or C++ sources are told by their names.
-/
namespace Restyle

/-- Names of configuration files, in the order of preference within a directory. -/
def configFileNames : List String := [".clang-format", "_clang-format"]

def sameIgnoringCase (a b : String) : Bool :=
  a.toList.map Char.toLower = b.toList.map Char.toLower

def isConfigFile (path : String) : Bool :=
  match Path.fileName? path with
  | some name => configFileNames.any (sameIgnoringCase name)
  | none => false

def cppExtensions : List String :=
  ["c", "cp", "cpp", "cppm", "c++", "cxx", "cc", "cu", "ino", "ixx", "h", "hh", "hpp", "hxx", "inc",
    "inl", "ipp", "mpp", "pch", "tch", "tpp", "cuh"]

def isCppFile (path : String) : Bool :=
  match Path.extension? path with
  | some extension => cppExtensions.any (sameIgnoringCase extension)
  | none => false

end Restyle
