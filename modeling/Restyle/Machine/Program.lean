import Restyle.Machine.Disk
import Restyle.Machine.Printing
import Restyle.Machine.Stream

/-! # Programs

The programs of a machine that do one simple thing, as functions from their arguments and their input.
Time is counted in milliseconds, and only waiting takes any.
-/
namespace Restyle

inductive Ending where
  | exited (code : Nat)
  | killed
  | endless
deriving Repr, DecidableEq, Inhabited

structure Effect where
  out : Stream := {}
  err : List UInt8 := []
  ending : Ending := .exited 0
  millis : Nat := 0
  rest : Option Stream := none
deriving Repr, Inhabited

structure Setting where
  disk : Disk := {}
  /-- The names on the way to the working directory. -/
  directory : List String := []
  input : Option Stream := some {}
deriving Repr

namespace Effect

def print (s : Setting) (text : String) : Effect := { out := .ofText text, rest := s.input }

def printBytes (s : Setting) (bytes : List UInt8) : Effect := { out := ⟨bytes, []⟩, rest := s.input }

def complain (s : Setting) (code : Nat) (text : String) : Effect :=
  { err := Utf8.encode text, ending := .exited code, rest := s.input }

def exit (s : Setting) (code : Nat) : Effect := { ending := .exited code, rest := s.input }

end Effect

namespace Program

def faultText : DiskFault → String
  | .notFound => "No such file or directory"
  | .notDirectory => "Not a directory"
  | .isDirectory => "Is a directory"
  | .notText => "Invalid or incomplete multibyte or wide character"

def seenFrom (directory : List String) (path : String) : String :=
  if path.toList.head? = some '/' then path else Disk.pathOf directory ++ "/" ++ path

def openStream (s : Setting) (path : String) : Except DiskFault Stream :=
  let full := seenFrom s.directory path
  if full = "/dev/null" then .ok {}
  else if full = "/dev/zero" then .ok ⟨[], [0]⟩
  else (s.disk.readBytes full).map fun bytes => ⟨bytes, []⟩

def andThen (a b : Effect) : Effect :=
  if a.out.isEndless then { a with ending := .endless }
  else
    let ending := if a.ending = .exited 0 then b.ending else a.ending
    ⟨⟨a.out.bytes ++ b.out.bytes, b.out.cycle⟩, a.err ++ b.err, ending, a.millis + b.millis, b.rest⟩

def copyInput (s : Setting) : Effect :=
  match s.input with
  | none => .complain s 1
      "cat: -: Bad file descriptor\ncat: closing standard input: Bad file descriptor\n"
  | some input => { out := input, rest := some {}, ending := if input.isEndless then .endless else .exited 0 }

def cat (s : Setting) : List String → Effect
  | [] => { rest := s.input }
  | path :: paths =>
    let first :=
      if path = "-" then copyInput s
      else match openStream s path with
        | .ok stream =>
          { out := stream, rest := s.input, ending := if stream.isEndless then .endless else .exited 0 }
        | .error fault => .complain s 1 s!"cat: {path}: {faultText fault}\n"
    andThen first (cat { s with input := first.rest } paths)

def behind? (start text : String) : Option String :=
  if start.toList.isPrefixOf text.toList then some (String.ofList (text.toList.drop start.length)) else none

inductive Measure where
  | lines (n : Nat)
  | bytes (n : Nat)
deriving Repr, DecidableEq

def Measure.read (m : Measure) : List String → Measure × List String
  | "-n" :: n :: words => Measure.read (.lines (n.toNat?.getD 10)) words
  | "-c" :: n :: words => Measure.read (.bytes (n.toNat?.getD 10)) words
  | word :: words =>
    match ((behind? "-c" word).bind String.toNat?), ((behind? "-n" word).bind String.toNat?),
        ((behind? "-" word).bind String.toNat?) with
    | some n, _, _ => Measure.read (.bytes n) words
    | _, some n, _ => Measure.read (.lines n) words
    | _, _, some n => Measure.read (.lines n) words
    | _, _, _ =>
      let (m, others) := Measure.read m words
      (m, word :: others)
  | [] => (m, [])

def firstLines : Nat → Stream → List UInt8
  | 0, _ => []
  | n + 1, s =>
    let (line, rest) := s.line
    if line.isEmpty then [] else line ++ firstLines n rest

def inputOf (name : String) (s : Setting) (paths : List String) : Except Effect Stream :=
  match paths with
  | [] => .ok (s.input.getD {})
  | "-" :: _ => .ok (s.input.getD {})
  | path :: _ => match openStream s path with
    | .ok stream => .ok stream
    | .error fault =>
      .error (.complain s 1 s!"{name}: cannot open '{path}' for reading: {faultText fault}\n")

def head (s : Setting) (words : List String) : Effect :=
  let (m, paths) := Measure.read (.lines 10) words
  match inputOf "head" s paths with
  | .error e => e
  | .ok stream =>
    let found := match m with
      | .lines n => firstLines n stream
      | .bytes n => stream.take n
    { out := ⟨found, []⟩, rest := some {} }

def tail (s : Setting) (words : List String) : Effect :=
  let (m, paths) := Measure.read (.lines 10) words
  match inputOf "tail" s paths with
  | .error e => e
  | .ok stream =>
    if stream.isEndless then { ending := .endless }
    else
      let bytes := stream.bytes
      let found := match m with
        | .bytes n => bytes.drop (bytes.length - n)
        | .lines n =>
          let count := bytes.count 10 + (if bytes.getLast?.all (· == 10) then 0 else 1)
          bytes.drop (firstLines (count - n) stream).length
      { out := ⟨found, []⟩, rest := some {} }

def wordCount (bytes : List UInt8) : Nat :=
  let blank := fun (b : UInt8) => b == 32 || (9 ≤ b && b ≤ 13)
  (bytes.foldl (fun (n, inside) b =>
    if blank b then (n, false) else if inside then (n, true) else (n + 1, true)) (0, false)).1

def count (s : Setting) (words : List String) : Effect :=
  match inputOf "wc" s (words.filter fun w => (behind? "-" w).isNone) with
  | .error e => e
  | .ok stream =>
    if stream.isEndless then { ending := .endless }
    else
      let bytes := stream.bytes
      let n := if words.contains "-l" then bytes.count 10
        else if words.contains "-w" then wordCount bytes
        else bytes.length
      { out := .ofText s!"{n}\n", rest := some {} }

def byteSet : List UInt8 → List UInt8
  | a :: 45 :: b :: rest =>
    (List.range (b.toNat + 1 - a.toNat)).map (fun i => (a.toNat + i).toUInt8) ++ byteSet rest
  | a :: rest => a :: byteSet rest
  | [] => []

def translate (s : Setting) (words : List String) : Effect :=
  let input := s.input.getD {}
  let set := fun (word : String) => byteSet (Printing.expand {} 0 word.toList).1
  let done := fun (f : UInt8 → List UInt8) =>
    let out := input.flatMap f
    let ending := if input.isEndless then .endless else .exited 0
    { out, ending, rest := some {} : Effect }
  match words with
  | ["-d", dropped] =>
    let dropped := set dropped
    done fun b => if dropped.contains b then [] else [b]
  | [old, new] =>
    let (old, new) := (set old, set new)
    done fun b => match old.idxOf? b with
      | some i => [(new[i]?).getD (new.getLast?.getD b)]
      | none => [b]
  | _ => .complain s 1 "tr: missing operand\nTry 'tr --help' for more information.\n"

def sequence (s : Setting) (words : List String) : Effect :=
  let range := fun (a step b : Int) =>
    if step ≤ 0 then []
    else (List.range (((b - a) / step + 1).toNat)).map fun (i : Nat) =>
      let n : Int := a + step * i
      s!"{n}\n"
  let lines := match words.map (fun w => w.toInt?.getD 0) with
    | [b] => range 1 1 b
    | [a, b] => range a 1 b
    | [a, step, b] => range a step b
    | _ => []
  .print s (String.join lines)

def duration? (word : String) : Option Nat :=
  let (number, scale) := match word.toList.reverse with
    | 's' :: cs => (cs.reverse, 1000)
    | 'm' :: cs => (cs.reverse, 60000)
    | 'h' :: cs => (cs.reverse, 3600000)
    | 'd' :: cs => (cs.reverse, 86400000)
    | cs => (cs.reverse, 1000)
  let whole := number.takeWhile Char.isDigit
  match number.drop whole.length with
  | [] => if whole.isEmpty then none else some (Printing.digits 10 whole * scale)
  | '.' :: places =>
    if places.all Char.isDigit && !(whole.isEmpty && places.isEmpty) then
      some (Printing.digits 10 whole * scale + Printing.digits 10 places * scale / Nat.pow 10 places.length)
    else none
  | _ => none

def sleep (s : Setting) (words : List String) : Effect :=
  let hint := "Try 'sleep --help' for more information.\n"
  if words.isEmpty then .complain s 1 s!"sleep: missing operand\n{hint}"
  else match words.find? fun w => (duration? w).isNone with
    | some bad => .complain s 1 s!"sleep: invalid time interval ‘{bad}’\n{hint}"
    | none => { millis := words.foldl (fun n w => n + (duration? w).getD 0) 0, rest := s.input }

/-- Whether a condition holds; none is no condition. -/
def condition (s : Setting) : List String → Option Bool
  | [] => some false
  | "!" :: words => (condition s words).map (!·)
  | ["-n", a] => some (a ≠ "")
  | ["-z", a] => some (a = "")
  | ["-f", a] => some (s.disk.isFile (seenFrom s.directory a))
  | ["-d", a] => some (s.disk.isDirectory (seenFrom s.directory a))
  | ["-e", a] => some (s.disk.stamp? (seenFrom s.directory a)).isSome
  | [a] => some (a ≠ "")
  | [a, "=", b] => some (a = b)
  | [a, "!=", b] => some (a ≠ b)
  | [a, relation, b] => do
    let (a, b) := (← a.toInt?, ← b.toInt?)
    match relation with
    | "-eq" => some (a = b)
    | "-ne" => some (a ≠ b)
    | "-lt" => some (a < b)
    | "-le" => some (a ≤ b)
    | "-gt" => some (b < a)
    | "-ge" => some (b ≤ a)
    | _ => none
  | _ => none

def test (s : Setting) (words : List String) : Effect :=
  .exit s (match condition s words with
    | some true => 0
    | some false => 1
    | none => 2)

def yes (s : Setting) (words : List String) : Effect :=
  let line := if words.isEmpty then "y" else " ".intercalate words
  { out := ⟨[], Utf8.encode (line ++ "\n")⟩, ending := .endless, rest := s.input }

def copyBlocks (s : Setting) (words : List String) : Effect :=
  let option := fun (name : String) => words.findSome? (behind? (name ++ "="))
  let size := ((option "bs").bind String.toNat?).getD 512
  let input := match option "if" with
    | some path => openStream s path
    | none => .ok (s.input.getD {})
  match input with
  | .error fault =>
    let path := (option "if").getD ""
    .complain s 1 s!"dd: failed to open '{path}': {faultText fault}\n"
  | .ok stream =>
    match (option "count").bind String.toNat? with
    | some count => .printBytes s (stream.take (size * count))
    | none => { out := stream, rest := some {}, ending := if stream.isEndless then .endless else .exited 0 }

def simple? (name : String) : Option (Setting → List String → Effect) :=
  match name with
  | "true" | ":" => some fun s _ => .exit s 0
  | "false" => some fun s _ => .exit s 1
  | "pwd" => some fun s _ => .print s (Disk.pathOf s.directory ++ "\n")
  | "test" => some test
  | "[" => some fun s words =>
    if words.getLast? = some "]" then test s words.dropLast else .complain s 2 "[: missing ']'\n"
  | "cat" => some fun s words => if words.isEmpty then copyInput s else cat s words
  | "head" => some head
  | "tail" => some tail
  | "wc" => some count
  | "tr" => some translate
  | "seq" => some sequence
  | "sleep" => some sleep
  | "yes" => some yes
  | "dd" => some copyBlocks
  | _ => none

def alone? (name : String) : Option (Setting → List String → Effect) :=
  match name with
  | ":" => none
  | "echo" => some fun s words => .printBytes s (Printing.plainEcho false true words)
  | "printf" => some fun s words =>
    if words.isEmpty then
      .complain s 1 "printf: missing operand\nTry 'printf --help' for more information.\n"
    else .printBytes s (Printing.printf { hex := true } words)
  | name => simple? name

def names : List String :=
  ["sh", "true", "false", "printf", "pwd", "test", "[", "cat", "head", "tail", "wc", "tr", "seq",
    "sleep", "yes", "echo", "dd", "bash", "chmod", "cp", "date", "env", "find", "grep", "ls", "mkdir", "mv",
    "rm", "sed", "sort", "tee", "touch", "uname", "xargs"]

end Program
end Restyle
