import Restyle.Machine.Word

/-! # Scripts

What a shell runs: commands, and the ways to put them together.
-/
namespace Restyle

structure Script.Direction where
  stream : Nat
  sign : String
  target : List Script.Part
deriving Repr

inductive Script where
  | nothing
  /-- Values for names, a command with its arguments, and directions of streams, with a line number. -/
  | simple (line : Nat) (values : List (String × List Script.Part)) (words : List (List Script.Part))
      (directions : List Script.Direction)
  | seq (a b : Script)
  | both (a b : Script)
  | either (a b : Script)
  | pipe (a b : Script)
  | negate (a : Script)
  | detached (a : Script)
  | directed (directions : List Script.Direction) (a : Script)
  | apart (a : Script)
  | loop (wanted : Bool) (test body : Script)
  | each (name : String) (words : List (List Script.Part)) (body : Script)
  | branch (test yes no : Script)
deriving Repr, Inhabited

namespace Script

abbrev Pieces := List (Nat × Piece)

def keyword? : Pieces → Option String
  | (_, .word parts) :: _ => plainText? parts
  | _ => none

def closers : List String := ["then", "else", "elif", "fi", "do", "done", "\x7d"]

def faultOf (needed : Option String) : Pieces → Fault
  | [] => .unexpectedEnd needed
  | (_, .sign "\n") :: _ => .unexpected "newline"
  | (_, .sign text) :: _ => .unexpected text
  | (_, .direct _ _) :: _ => .unexpected "redirection"
  | (_, .word parts) :: _ => match plainText? parts with
    | some text => .unexpected text
    | none => .unexpected "word"

def skipLines (ps : Pieces) : Pieces := ps.dropWhile fun p => p.2 = .sign "\n"

def expect (word : String) (ps : Pieces) : Except Fault Pieces :=
  if keyword? ps = some word then .ok (ps.drop 1) else .error (faultOf (some word) ps)

def value? (parts : List Part) : Option (String × List Part) :=
  let name := parts.takeWhile fun p => p.kind = .text && !p.quoted && p.text ≠ "="
  match parts.drop name.length with
  | ⟨.text, "=", false⟩ :: rest =>
    let text := String.join (name.map (·.text))
    if text ≠ "" && text.toList.all isNameChar && !(text.toList.headD ' ').isDigit then some (text, rest)
    else none
  | _ => none

def readSimple (values : List (String × List Part)) (words : List (List Part))
    (directions : List Direction) (line : Nat) : Pieces → Except Fault (Script × Pieces)
  | (_, .direct stream sign) :: (_, .word target) :: ps =>
    readSimple values words (directions ++ [⟨stream, sign, target⟩]) line ps
  | (_, .direct _ _) :: ps => .error (faultOf none ps)
  | (_, .word parts) :: ps => match words, value? parts with
    | [], some value => readSimple (values ++ [value]) words directions line ps
    | _, _ => readSimple values (words ++ [parts]) directions line ps
  | ps => .ok (.simple line values words directions, ps)

def readDirections (directions : List Direction) : Pieces → List Direction × Pieces
  | (_, .direct stream sign) :: (_, .word target) :: ps =>
    readDirections (directions ++ [⟨stream, sign, target⟩]) ps
  | ps => (directions, ps)

def readWords (words : List (List Part)) : Pieces → List (List Part) × Pieces
  | (_, .word parts) :: ps => readWords (words ++ [parts]) ps
  | (_, .sign ";") :: ps => (words, ps)
  | ps => (words, ps)

inductive Goal where
  | list
  | joined
  | pipe
  | command
  | branch

/-- Reads towards a goal; `fuel` bounds the depth of the script. -/
def read (fuel : Nat) (g : Goal) (ps : Pieces) : Except Fault (Script × Pieces) :=
  match fuel with
  | 0 => .error (.unexpectedEnd none)
  | n + 1 => match g with
    | .list => do
      let ps := skipLines ps
      let atEnd := match ps with
        | [] => true
        | (_, .sign ")") :: _ => true
        | ps => (keyword? ps).any closers.contains
      if atEnd then return (.nothing, ps)
      let (a, ps) ← read n .joined ps
      match ps with
      | (_, .sign "&") :: ps =>
        let (b, ps) ← read n .list ps
        return (.seq (.detached a) b, ps)
      | (_, .sign ";") :: ps | (_, .sign "\n") :: ps =>
        let (b, ps) ← read n .list ps
        return (.seq a b, ps)
      | ps => return (a, ps)
    | .joined => do
      let (a, ps) ← read n .pipe ps
      joinAll n a ps
    | .pipe => do
      let (negated, ps) := if keyword? ps = some "!" then (true, ps.drop 1) else (false, ps)
      let (a, ps) ← read n .command ps
      let (a, ps) ← match ps with
        | (_, .sign "|") :: ps => do
          let (b, ps) ← read n .pipe (skipLines ps)
          pure (Script.pipe a b, ps)
        | ps => pure (a, ps)
      return (if negated then .negate a else a, ps)
    | .branch => do
      let (test, ps) ← read n .list ps
      let (yes, ps) ← read n .list (← expect "then" ps)
      match keyword? ps with
      | some "elif" =>
        let (no, ps) ← read n .branch (ps.drop 1)
        return (.branch test yes no, ps)
      | some "else" =>
        let (no, ps) ← read n .list (ps.drop 1)
        return (.branch test yes no, ← expect "fi" ps)
      | _ => return (.branch test yes .nothing, ← expect "fi" ps)
    | .command =>
      let directed := fun (a : Script) (ps : Pieces) =>
        let (directions, ps) := readDirections [] ps
        if directions.isEmpty then (a, ps) else (Script.directed directions a, ps)
      match ps, keyword? ps with
      | (_, .sign "(") :: ps, _ => do
        let (a, ps) ← read n .list ps
        match ps with
        | (_, .sign ")") :: ps => return directed (.apart a) ps
        | ps => throw (faultOf (some ")") ps)
      | ps, some "\x7b" => do
        let (a, ps) ← read n .list (ps.drop 1)
        return directed a (← expect "\x7d" ps)
      | ps, some "if" => do
        let (a, ps) ← read n .branch (ps.drop 1)
        return directed a ps
      | ps, some "while" => do
        let (test, ps) ← read n .list (ps.drop 1)
        let (body, ps) ← read n .list (← expect "do" ps)
        return directed (.loop true test body) (← expect "done" ps)
      | ps, some "until" => do
        let (test, ps) ← read n .list (ps.drop 1)
        let (body, ps) ← read n .list (← expect "do" ps)
        return directed (.loop false test body) (← expect "done" ps)
      | ps, some "for" => do
        match keyword? (ps.drop 1), keyword? (ps.drop 2) with
        | some name, some "in" =>
          let (words, ps) := readWords [] (ps.drop 3)
          let (body, ps) ← read n .list (← expect "do" (skipLines ps))
          return directed (.each name words body) (← expect "done" ps)
        | _, _ => throw (faultOf none (ps.drop 2))
      | (_, .sign _) :: _, _ | [], _ => .error (faultOf none ps)
      | ps, some word =>
        if closers.contains word then .error (faultOf none ps)
        else readSimple [] [] [] ((ps.head?.map (·.1)).getD 1) ps
      | ps, none => readSimple [] [] [] ((ps.head?.map (·.1)).getD 1) ps
where
  joinAll (fuel : Nat) (a : Script) (ps : Pieces) : Except Fault (Script × Pieces) :=
    match fuel with
    | 0 => .ok (a, ps)
    | n + 1 => match ps with
      | (_, .sign "&&") :: ps => do
        let (b, ps) ← read n .pipe (skipLines ps)
        joinAll n (.both a b) ps
      | (_, .sign "||") :: ps => do
        let (b, ps) ← read n .pipe (skipLines ps)
        joinAll n (.either a b) ps
      | ps => .ok (a, ps)

def ofText (text : String) : Except Fault Script := do
  let ps ← pieces (text.length + 1) 1 text.toList
  let (a, rest) ← read (3 * ps.length + 8) .list ps
  match rest with
  | [] => return a
  | rest => throw (faultOf none rest)

end Script
end Restyle
