import Restyle.Format.Edit
import Restyle.Text.Utf8

/-! # The desk

Named documents and the format requests that are under way on them.  A request takes a snapshot when
it begins and changes its document, if at all, when it is concluded; in between documents may be
edited and requests cancelled.
-/
namespace Restyle

/-- A sign by which a request can be cancelled. -/
abbrev Token := Nat

structure InFlight where
  id : Nat
  token : Token
  document : String
  /-- The stamp of the document when the request began. -/
  stamp : Nat
deriving Repr, DecidableEq

structure Desk where
  documents : List (String × Buffer) := []
  cancelled : List Token := []
  nextToken : Token := 0
  inFlight : List InFlight := []
  nextId : Nat := 0
deriving Repr

structure Ticket where
  id : Nat
  token : Token
  document : String
  source : List UInt8
  stamp : Nat
deriving Repr, DecidableEq

inductive DeskStep where
  | setText (document text : String)
  /-- Requests are cancelled whose document has changed, except for one that is still in use. -/
  | mutated (inUse : Option String)
  | cancel (token : Token)
  | look
deriving Repr, DecidableEq

namespace Desk

/-- A document; it is empty when it is first used. -/
def document (d : Desk) (name : String) : Buffer :=
  ((d.documents.find? (·.1 = name)).map (·.2)).getD (Buffer.ofText "")

def setDocument (d : Desk) (name : String) (b : Buffer) : Desk :=
  { d with documents := (name, b) :: d.documents.filter (·.1 ≠ name) }

def isCancelled (d : Desk) (t : Token) : Bool := d.cancelled.contains t

def cancel (d : Desk) (t : Token) : Desk := { d with cancelled := t :: d.cancelled }

def newToken (d : Desk) (cancelled : Bool) : Token × Desk :=
  let t := d.nextToken
  let d := { d with nextToken := t + 1 }
  (t, if cancelled then d.cancel t else d)

def start (d : Desk) (name : String) (t : Token) : Ticket × Desk :=
  let b := d.document name
  (⟨d.nextId, t, name, Utf8.encode b.text, b.stamp⟩,
    { d.setDocument name b with inFlight := d.inFlight ++ [⟨d.nextId, t, name, b.stamp⟩], nextId := d.nextId + 1 })

def isStale (d : Desk) (inUse : Option String) (r : InFlight) : Bool :=
  if inUse = some r.document then false
  else match d.documents.find? (·.1 = r.document) with
    | some (_, b) => b.stamp ≠ r.stamp
    | none => true

def mutated (d : Desk) (inUse : Option String) : Desk :=
  ((d.inFlight.filter (d.isStale inUse)).map (·.token)).foldl
    (fun d t => if d.isCancelled t then d else d.cancel t) d

def unregister (d : Desk) (id : Nat) : Desk :=
  { d with inFlight := d.inFlight.filter (·.id ≠ id) }

/-- What a prepared request does to its document.  Nothing, if it was cancelled. -/
def land (d : Desk) (t : Ticket) : Except Failure Prepared → Except Failure Outcome × Desk
  | .ok (.edit e) =>
    if d.isCancelled t.token then (.ok .cancelled, d)
    else
      let (outcome, b) := e.apply (d.document t.document)
      (outcome, d.setDocument t.document b)
  | .ok (.done o) => (.ok o, d)
  | .error f => (.error f, d)

def conclude (d : Desk) (t : Ticket) (result : Except Failure Prepared) :
    Except Failure Outcome × Desk :=
  let (outcome, d) := d.land t result
  (outcome, d.unregister t.id)

def step (d : Desk) : DeskStep → Desk
  | .setText name text => d.setDocument name ((d.document name).setText text)
  | .mutated inUse => d.mutated inUse
  | .cancel t => d.cancel t
  | .look => d

end Desk
end Restyle
