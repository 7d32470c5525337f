import Restyle.Machine.Program
import Restyle.Machine.Script
import Restyle.Machine.Sum
import Restyle.Text.Blank

/-! # The shell

Runs scripts.  `Shell.run` goes through a script with a bound on the number of steps; a script that
exceeds it never ends.
-/
namespace Restyle

inductive Sink where
  | out
  | err
  | nowhere
  | file (path : String)
deriving Repr, DecidableEq, Inhabited

inductive Leap where
  | leave (levels : Nat)
  /-- Go on with the next round of the loop that is so many levels out. -/
  | again (levels : Nat)
deriving Repr, DecidableEq

structure Shell where
  disk : Disk
  directory : List String
  name : String := "sh"
  params : List String := []
  bindings : List (String × String) := []
  input : Option Stream := some {}
  out : Array UInt8 := #[]
  /-- What repeats without end behind the output. -/
  cycle : List UInt8 := []
  err : Array UInt8 := #[]
  outTo : Sink := .out
  errTo : Sink := .err
  status : Nat := 0
  loops : Nat := 0
  leap : Option Leap := none
  ended : Option Ending := none
  millis : Nat := 0

namespace Shell

open Script

def pid : String := "4242"

def emit (s : Shell) (sink : Sink) (bytes : List UInt8) : Shell :=
  match sink with
  | .out => { s with out := bytes.foldl Array.push s.out }
  | .err => { s with err := bytes.foldl Array.push s.err }
  | .nowhere => s
  | .file path =>
    let before := ((s.disk.readBytes path).toOption).getD []
    match s.disk.write path (before ++ bytes) with
    | .ok disk => { s with disk }
    | .error _ => s

def complain (s : Shell) (line code : Nat) (text : String) : Shell :=
  { s.emit s.errTo (Utf8.encode s!"{s.name}: {line}: {text}\n") with status := code }

def valueOf (s : Shell) (name : String) : String := ((s.bindings.find? (·.1 = name)).map (·.2)).getD ""

def assign (s : Shell) (name value : String) : Shell :=
  { s with bindings := (name, value) :: s.bindings.filter (·.1 ≠ name) }

def setting (s : Shell) : Setting := ⟨s.disk, s.directory, s.input⟩

def absorb (s : Shell) (e : Effect) : Shell :=
  let s := (s.emit s.outTo e.out.bytes).emit s.errTo e.err
  let s := { s with cycle := if s.outTo = Sink.out then e.out.cycle else [], millis := s.millis + e.millis }
  let s := { s with input := if s.input.isSome then e.rest else none }
  match e.ending with
  | .exited code => { s with status := code }
  | ending => { s with ended := some ending }

/-! ### Words -/

def value (s : Shell) (text : String) : String :=
  match text.toList with
  | ['$'] => pid
  | ['?'] => toString s.status
  | ['#'] => toString s.params.length
  | ['0'] => s.name
  | ['@'] | ['*'] => " ".intercalate s.params
  | '#' :: name => toString (s.valueOf (String.ofList name)).length
  | cs =>
    if cs.all Char.isDigit then (s.params[(Printing.digits 10 cs) - 1]?).getD ""
    else match text.splitOn ":-" with
      | [name, other] => if s.valueOf name = "" then other else s.valueOf name
      | _ => s.valueOf text

inductive Bit where
  | char (c : Char)
  /-- A word ends here. -/
  | cut
  /-- There is a word here, though it may be empty. -/
  | mark
deriving Repr, DecidableEq

def bitsOf (quoted : Bool) (text : String) : List Bit :=
  if quoted then .mark :: text.toList.map .char
  else text.toList.map fun c => if c == ' ' || c == '\t' || c == '\n' then .cut else .char c

def wordsOf (bits : List Bit) : List String :=
  let close := fun (acc : List String × Option (List Char)) => match acc.2 with
    | some cs => (acc.1 ++ [String.ofList cs.reverse], none)
    | none => acc
  let step := fun (acc : List String × Option (List Char)) (b : Bit) => match b with
    | .char c => (acc.1, some (c :: acc.2.getD []))
    | .mark => (acc.1, some (acc.2.getD []))
    | .cut => close acc
  (close (bits.foldl step ([], none))).1

def bitsOfPart (capture : String → Shell → String × Shell) (s : Shell) (p : Part) : List Bit × Shell :=
  match p.kind with
  | .text => (if p.quoted then bitsOf true p.text else p.text.toList.map .char, s)
  | .value =>
    if p.text = "@" && p.quoted then
      ((s.params.map (bitsOf true)).intersperse [.cut] |>.flatten, s)
    else (bitsOf p.quoted (s.value p.text), s)
  | .sum => (bitsOf p.quoted (toString (calculate (fun n => (s.valueOf n).toInt?.getD 0) p.text)), s)
  | .output =>
    let (text, s) := capture p.text s
    (bitsOf p.quoted text, s)

def bitsOfParts (capture : String → Shell → String × Shell) (s : Shell) (parts : List Part) :
    List Bit × Shell :=
  parts.foldl (fun (acc : List Bit × Shell) p =>
    let (bits, s) := bitsOfPart capture acc.2 p
    (acc.1 ++ bits, s)) ([], s)

def expandWord (capture : String → Shell → String × Shell) (s : Shell) (parts : List Part) :
    List String × Shell :=
  let (bits, s) := bitsOfParts capture s parts
  (wordsOf bits, s)

def expandText (capture : String → Shell → String × Shell) (s : Shell) (parts : List Part) :
    String × Shell :=
  let (bits, s) := bitsOfParts capture s (parts.map fun p => { p with quoted := true })
  (String.ofList (bits.filterMap fun
    | .char c => some c
    | _ => none), s)

def expandAll (capture : String → Shell → String × Shell) (s : Shell) (words : List (List Part)) :
    List String × Shell :=
  words.foldl (fun (acc : List String × Shell) w =>
    let (more, s) := expandWord capture acc.2 w
    (acc.1 ++ more, s)) ([], s)

/-! ### Directions -/

def sinkOf (s : Shell) (target : String) : Sink :=
  if target = "1" then s.outTo else if target = "2" then s.errTo else .nowhere

def setSink (s : Shell) (stream : Nat) (sink : Sink) : Shell :=
  if stream = 1 then { s with outTo := sink } else if stream = 2 then { s with errTo := sink } else s

/-- Directs a stream; none if that is not possible, with a complaint. -/
def direct (s : Shell) (line stream : Nat) (sign target : String) : Shell × Bool :=
  let full := Program.seenFrom s.directory target
  if sign = ">&" || sign = "<&" then
    (if stream = 0 then (if target = "-" then { s with input := none } else s)
    else s.setSink stream (s.sinkOf target), true)
  else if sign = "<" then match Program.openStream s.setting target with
    | .ok stream => ({ s with input := some stream }, true)
    | .error _ => (s.complain line 2 s!"cannot open {target}: No such file", false)
  else if full = "/dev/null" then (s.setSink stream .nowhere, true)
  else
    let before := if sign = ">>" then ((s.disk.readBytes full).toOption).getD [] else []
    match s.disk.write full before with
    | .ok disk => ({ s with disk }.setSink stream (.file full), true)
    | .error fault =>
      let reason := if fault = .isDirectory then "Is a directory" else "Directory nonexistent"
      (s.complain line 2 s!"cannot create {target}: {reason}", false)

def directAll (capture : String → Shell → String × Shell) (line : Nat) (s : Shell) :
    List Direction → Shell × Bool
  | [] => (s, true)
  | d :: ds =>
    let (target, s) := expandText capture s d.target
    match s.direct line d.stream d.sign target with
    | (s, true) => directAll capture line s ds
    | (s, false) => (s, false)

def restore (before : Shell) (directions : List Direction) (s : Shell) : Shell :=
  let input := if directions.any (·.stream = 0) then before.input else s.input
  { s with outTo := before.outTo, errTo := before.errTo, input }

/-! ### Commands -/

def exit (s : Shell) (line : Nat) : List String → Shell
  | [] => { s with ended := some (.exited s.status) }
  | word :: _ => match word.toNat? with
    | some n => { s with status := n % 256, ended := some (.exited (n % 256)) }
    | none => { s.complain line 2 s!"exit: Illegal number: {word}" with ended := some (.exited 2) }

def readLine (s : Shell) (names : List String) : Shell :=
  let (line, rest) := (s.input.getD {}).line
  let s := { s with input := s.input.map fun _ => rest, status := if line.getLast? = some 10 then 0 else 1 }
  let text := Utf8.toText (line.filter (· ≠ 10))
  match names with
  | [] => s
  | [name] => s.assign name (Text.trim text)
  | names =>
    let words := (text.splitOn " ").filter (· ≠ "")
    let values := (List.range names.length).map fun i =>
      if i + 1 = names.length then " ".intercalate (words.drop i) else (words[i]?).getD ""
    (names.zip values).foldl (fun s p => s.assign p.1 p.2) s

def kill (s : Shell) (words : List String) : Shell :=
  let harmless := words.contains "-0"
  if words.contains pid && !harmless then { s with ended := some .killed } else { s with status := 0 }

def changeDirectory (s : Shell) (line : Nat) (target : String) : Shell :=
  let full := Program.seenFrom s.directory target
  match s.disk.get full, s.disk.locate full with
  | .ok (.directory _), .ok names => { s with directory := names, status := 0 }
  | _, _ => s.complain line 2 s!"cd: can't cd to {target}"

/-- Complains about a word that names no program; `lead` stands in front of it. -/
def unknownCommand (s : Shell) (line : Nat) (lead word : String) : Shell :=
  if word.toList.contains '/' && (s.disk.stamp? (Program.seenFrom s.directory word)).isSome then
    s.complain line 126 s!"{lead}{word}: Permission denied"
  else s.complain line 127 s!"{lead}{word}: not found"

/-- The program that a word names: its last name, if it stands where programs are. -/
def programOf (disk : Disk) (directory : List String) (word : String) : Option String :=
  if word.toList.contains '/' then
    match disk.get (Program.seenFrom directory word) with
    | .ok (.file _ _ true) => (word.splitOn "/").getLast?
    | _ => none
  else some word

/-- A shell in which nothing has happened yet, with the surroundings of another one. -/
def inner (s : Shell) : Shell :=
  { s with out := #[], err := #[], cycle := [], ended := none, outTo := .out, errTo := .err, loops := 0, leap := none }

/-- Takes over what a part of the script has done apart from the shell. -/
def rejoin (s part : Shell) : Shell :=
  let s := (s.emit s.outTo part.out.toList).emit s.errTo part.err.toList
  let s := { s with disk := part.disk, input := part.input, millis := part.millis }
  let s := { s with cycle := if s.outTo = Sink.out then part.cycle else [] }
  match part.ended with
  | none => { s with status := part.status }
  | some (.exited code) => { s with status := code }
  | some ending => { s with ended := some ending }

def jump (s : Shell) (way : Nat → Leap) (words : List String) : Shell :=
  let levels := min s.loops (((words.head?).bind String.toNat?).getD 1)
  { s with status := 0, leap := if levels = 0 then none else some (way levels) }

def enterLoop (s : Shell) : Shell := { s with loops := s.loops + 1 }

def endRound (s : Shell) : Shell :=
  match s.leap with
  | some (.again 1) => { s with leap := none }
  | _ => s

def leaveLoop (s : Shell) : Shell :=
  let leap := match s.leap with
    | some (.leave (n + 2)) => some (Leap.leave (n + 1))
    | some (.again (n + 2)) => some (Leap.again (n + 1))
    | _ => none
  { s with loops := s.loops - 1, leap }

def isLeaving (s : Shell) : Bool := s.ended.isSome || s.leap.isSome

def builtin? (s : Shell) (line : Nat) (words : List String) : Option Shell :=
  match words with
  | "exit" :: rest => some (s.exit line rest)
  | "cd" :: rest => some (s.changeDirectory line (rest.headD "/root"))
  | "read" :: rest => some (s.readLine (rest.filter (· ≠ "-r")))
  | "kill" :: rest => some (s.kill rest)
  | "shift" :: _ => some { s with params := s.params.drop 1, status := 0 }
  | "break" :: rest => some (s.jump .leave rest)
  | "continue" :: rest => some (s.jump .again rest)
  | "set" :: "--" :: rest => some { s with params := rest, status := 0 }
  | "trap" :: _ | "set" :: _ | "wait" :: _ | "umask" :: _ => some { s with status := 0 }
  | "export" :: rest => some (rest.foldl (fun s w => match w.splitOn "=" with
    | name :: value :: more => s.assign name ("=".intercalate (value :: more))
    | _ => s) { s with status := 0 })
  | "unset" :: rest =>
    some { s with bindings := s.bindings.filter fun v => !rest.contains v.1, status := 0 }
  | "echo" :: rest => some (s.absorb (.printBytes s.setting (Printing.echo rest)))
  | ["printf"] => some (s.complain line 2 "printf: usage: printf format [arg ...]")
  | "printf" :: rest => some (s.absorb (.printBytes s.setting (Printing.printf {} rest)))
  | _ => none

def startOf (s : Setting) (words : List String) : Except Effect (String × String × List String) :=
  match words with
  | ["-c"] => .error (.complain s 2 "sh: 0: -c requires an argument\n")
  | "-c" :: text :: rest => .ok (text, rest.headD "sh", rest.drop 1)
  | [] | ["-s"] => .ok (Utf8.toText (s.input.getD {}).bytes, "sh", [])
  | path :: rest => match Program.openStream s path with
    | .ok stream => .ok (Utf8.toText stream.bytes, path, rest)
    | .error _ => .error (.complain s 2 s!"sh: 0: cannot open {path}: No such file\n")

def run (steps : Nat) (a : Script) (s : Shell) : Shell :=
  if s.isLeaving then s
  else match steps with
  | 0 => { s with ended := some .endless }
  | n + 1 =>
    let apart := fun (a : Script) (s : Shell) => s.rejoin (run n a s.inner)
    let runText := fun (text : String) (s : Shell) => match Script.ofText text with
      | .ok a => run n a s
      | .error fault =>
        let s := s.complain 1 2 s!"Syntax error: {fault.message}"
        { s with ended := some (.exited 2) }
    let capture := fun (text : String) (s : Shell) =>
      let part := runText text s.inner
      let output := part.out.toList.reverse.dropWhile (· == 10) |>.reverse
      (Utf8.toText output, { s.rejoin { part with out := #[] } with status := part.status })
    let start := fun (s : Shell) (words : List String) => match startOf s.setting words with
      | .error e => s.absorb e
      | .ok (text, name, params) =>
        let part := runText text { s.inner with name, params, bindings := [] }
        s.rejoin part
    match a with
    | .nothing => s
    | .seq a b => run n b (run n a s)
    | .both a b =>
      let s := run n a s
      if s.status = 0 then run n b s else s
    | .either a b =>
      let s := run n a s
      if s.status = 0 then s else run n b s
    | .negate a =>
      let s := run n a s
      { s with status := if s.status = 0 then 1 else 0 }
    | .apart a => apart a s
    | .detached a =>
      let after := apart a { s with input := some {} }
      { after with input := s.input, millis := s.millis, status := 0 }
    | .pipe a b =>
      let first := run n a { s.inner with errTo := .err }
      let between : Stream := ⟨first.out.toList, first.cycle⟩
      let second := run n b { s.inner with input := some between, disk := first.disk }
      let both := { second with input := first.input, err := first.err ++ second.err, millis := max first.millis second.millis }
      let both := if first.ended = some .endless && first.cycle.isEmpty then { both with ended := first.ended } else both
      s.rejoin (if first.ended = some .killed then { both with ended := first.ended } else both)
    | .directed directions a => match directAll capture 1 s directions with
      | (after, true) => restore s directions (run n a after)
      | (after, false) => restore s directions after
    | .loop wanted test body =>
      let after := run n test s.enterLoop
      if after.isLeaving then after.leaveLoop
      else if (after.status == 0) == wanted then
        let after := (run n body after).endRound
        if after.leap.isSome then after.leaveLoop else run n (.loop wanted test body) after.leaveLoop
      else { after.leaveLoop with status := 0 }
    | .each name words body =>
      let (values, s) := expandAll capture s words
      let round := fun (s : Shell) (v : String) =>
        if s.isLeaving then s else (run n body (s.assign name v)).endRound
      (values.foldl round { s.enterLoop with status := 0 }).leaveLoop
    | .branch test yes no =>
      let after := run n test s
      if after.isLeaving then after
      else if after.status = 0 then run n yes after
      else run n no { after with status := 0 }
    | .simple line values words directions =>
      let (words, expanded) := expandAll capture s words
      let expanded := { expanded with status := if words.isEmpty then expanded.status else s.status }
      match directAll capture line expanded directions with
      | (after, false) => restore s directions after
      | (after, true) =>
        let after := values.foldl (fun s v =>
          let (text, s) := expandText capture s v.2
          s.assign v.1 text) after
        let command := fun (lead : String) (s : Shell) (words : List String) => match s.builtin? line words with
          | some s => s
          | none => match words with
            | [] => s
            | word :: rest => match programOf s.disk s.directory word with
              | none => s.unknownCommand line lead word
              | some "sh" => start s rest
              | some name => match Program.simple? name with
                | some program => s.absorb (program s.setting rest)
                | none => s.unknownCommand line lead word
        match words with
        | [] =>
          let captured := values.any fun v => v.2.any (·.kind = .output)
          restore s directions (if captured then after else { after with status := 0 })
        | ["exec"] => { after with status := 0 }
        | "exec" :: rest =>
          let s := command "exec: " after rest
          if s.ended.isSome then s else { s with ended := some (.exited s.status) }
        | "eval" :: rest => restore s directions (runText (" ".intercalate rest) after)
        | words => restore s directions (command "" after words)

def maxSteps : Nat := 100000

def program (s : Setting) (words : List String) : Effect :=
  match startOf s words with
  | .error e => e
  | .ok (text, name, params) =>
    let first : Shell := { disk := s.disk, directory := s.directory, name, params, input := s.input }
    match Script.ofText text with
    | .error fault => .complain s 2 s!"{name}: 1: Syntax error: {fault.message}\n"
    | .ok script =>
      let last := run maxSteps script first
      { out := ⟨last.out.toList, last.cycle⟩, err := last.err.toList, millis := last.millis,
        ending := last.ended.getD (.exited last.status), rest := last.input }

end Shell
end Restyle
