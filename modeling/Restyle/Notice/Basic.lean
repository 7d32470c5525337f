import Restyle.Failure
import Restyle.File.Path

/-! # Notices

A failure is shown as a notice.  At most one notice is live; the next one, and a new request, retract
it.
-/
namespace Restyle

structure Notice where
  id : Nat
  title : String
  content : String
  position : Option Position
deriving Repr, DecidableEq, Inhabited

inductive NoticeEvent where
  | shown (n : Notice)
  | expired (n : Notice)
deriving Repr, DecidableEq

/-- The live notice, if there is one, and the number of the next. -/
structure Notifier where
  current : Option Notice := none
  nextId : Nat := 1
deriving Repr, DecidableEq

namespace Notifier

def retract (n : Notifier) : List NoticeEvent :=
  match n.current with
  | some previous => [.expired previous]
  | none => []

def notify (n : Notifier) (file : String) (f : Failure) : Notifier × Notice × List NoticeEvent :=
  let name := (Path.fileName? file).getD file
  let notice : Notice := ⟨n.nextId, s!"Failed to format {name}", f.message, f.position?⟩
  (⟨some notice, n.nextId + 1⟩, notice, n.retract ++ [.shown notice])

def clear (n : Notifier) : Notifier × List NoticeEvent := ({ n with current := none }, n.retract)

end Notifier

def Notice.line (n : Notice) : String :=
  match n.position with
  | some p => s!"{n.title}\n{n.content}\n  at {p.file}:{p.line + 1}:{p.column + 1}"
  | none => s!"{n.title}\n{n.content}"

end Restyle
