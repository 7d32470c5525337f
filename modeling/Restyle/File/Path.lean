/-! # Paths

A path is a text; a slash separates its parts.  Empty parts and single dots do not count, except for
a dot at the very front of a relative path.  Two paths are the same if their parts are; cutting a
path keeps the text of what remains.
-/
namespace Restyle
namespace Path

def pieces : List Char → List (List Char)
  | [] => [[]]
  | c :: cs =>
    if c = '/' then [] :: pieces cs
    else match pieces cs with
      | p :: ps => (c :: p) :: ps
      | [] => [[c]]

def glue : List (List Char) → List Char
  | [] => []
  | [p] => p
  | p :: ps => p ++ '/' :: glue ps

def isVoid (piece : List Char) : Bool := piece = [] || piece = ['.']

/-- What the front of a path says about the whole: it starts at the root, or at an explicit dot, or
neither.  The second part is the rest of the text. -/
def front (cs : List Char) : List Char × List Char :=
  match cs with
  | '/' :: rest => (['/'], rest)
  | ['.'] => (['.'], [])
  | '.' :: '/' :: rest => (['.'], '/' :: rest)
  | cs => ([], cs)

def isAbsolute (path : String) : Bool := path.toList.head? = some '/'

/-- The parts of a path, with its front: two paths are the same if these are equal. -/
structure Key where
  front : List Char
  parts : List (List Char)
deriving Repr, DecidableEq, Inhabited

def key (path : String) : Key :=
  let (front, body) := front path.toList
  ⟨front, (pieces body).filter (!isVoid ·)⟩

def same (a b : String) : Bool := key a = key b

/-- The pieces that count at the end of a path: the last one, and those before it, latest first. -/
def last? (body : List Char) : Option (List Char × List (List Char)) :=
  match (pieces body).reverse.dropWhile isVoid with
  | [] => none
  | p :: ps => some (p, ps)

def parent? (path : String) : Option String :=
  let (front, body) := front path.toList
  match last? body with
  | some (_, before) => some (String.ofList (front ++ glue (before.dropWhile isVoid).reverse))
  | none => if front = ['.'] then some "" else none

/-- The last part of a path, unless that leads upwards. -/
def fileName? (path : String) : Option String :=
  match last? (front path.toList).2 with
  | some (p, _) => if p = ['.', '.'] then none else some (String.ofList p)
  | none => none

/-- What follows the last dot of the last part; a dot at its front does not count. -/
def extension? (path : String) : Option String :=
  (fileName? path).bind fun name =>
    let reversed := name.toList.reverse
    match reversed.dropWhile (· ≠ '.') with
    | _ :: _ :: _ => some (String.ofList (reversed.takeWhile (· ≠ '.')).reverse)
    | _ => none

def join (path further : String) : String :=
  if isAbsolute further || path.isEmpty then further
  else if path.toList.getLast? = some '/' then path ++ further
  else path ++ "/" ++ further

/-- The absolute path without void parts and without parts that lead upwards. -/
def normalize (path : String) : String :=
  let (front, body) := front path.toList
  let step := fun (acc : List (List Char)) (piece : List Char) =>
    if isVoid piece then acc
    else if piece = ['.', '.'] then acc.drop 1
    else piece :: acc
  let start := if front = ['/'] then front else []
  String.ofList (start ++ glue ((pieces body).foldl step []).reverse)

end Path
end Restyle
