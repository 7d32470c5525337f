import Restyle.Notice.Basic

/-! # What is shown on the board

The events that the notifier sends are replayed here: a notice is live from its showing to its expiry.  The
board tells a list of failures if their notices were shown in this order, numbered from one, and each was
retracted before the next one was shown.
-/
namespace Restyle

/-- The notices that are live after events, provided that each expiry is one of a live notice. -/
def replay : List Notice → List NoticeEvent → Option (List Notice)
  | live, [] => some live
  | live, .shown n :: events => replay (live ++ [n]) events
  | live, .expired n :: events => if n ∈ live then replay (live.erase n) events else none

namespace NoticeEvent

def shown? : NoticeEvent → Option Notice
  | shown n => some n
  | expired _ => none

def expired? : NoticeEvent → Option Notice
  | shown _ => none
  | expired n => some n

end NoticeEvent

/-- The events of notices that are shown one at a time, of which the last may be live. -/
def oneByOne (past : List Notice) (last : Option Notice) : List NoticeEvent :=
  (past.flatMap fun n => [.shown n, .expired n]) ++ last.toList.map .shown

theorem oneByOne_cons (n : Notice) (past : List Notice) (last : Option Notice) :
    oneByOne (n :: past) last = .shown n :: .expired n :: oneByOne past last := rfl

abbrev Trouble := String × Failure

def Trouble.notice (trouble : Trouble) (id : Nat) : Notice :=
  ⟨id, s!"Failed to format {(Path.fileName? trouble.1).getD trouble.1}", trouble.2.message, trouble.2.position?⟩

def numbered (troubles : List Trouble) : List Notice := (troubles.zipIdx 1).map fun p => p.1.notice p.2

@[simp] theorem numbered_nil : numbered [] = [] := rfl

theorem numbered_concat (troubles : List Trouble) (trouble : Trouble) :
    numbered (troubles ++ [trouble]) = numbered troubles ++ [trouble.notice (troubles.length + 1)] := by
  simp [numbered, List.zipIdx_append, Nat.add_comm]

theorem map_id_numbered (troubles : List Trouble) : (numbered troubles).map (·.id) = List.range' 1 troubles.length := by
  rw [← List.zipIdx_map_snd, numbered, List.map_map]
  rfl

structure Board where
  notifier : Notifier
  events : List NoticeEvent

namespace Board

def notify (b : Board) (trouble : Trouble) : Board :=
  let (notifier, _, events) := b.notifier.notify trouble.1 trouble.2
  ⟨notifier, b.events ++ events⟩

def clear (b : Board) : Board :=
  let (notifier, events) := b.notifier.clear
  ⟨notifier, b.events ++ events⟩

theorem oneByOne_retract (n : Notifier) (past : List Notice) :
    oneByOne past n.current ++ n.retract = oneByOne (past ++ n.current.toList) none := by
  unfold Notifier.retract
  cases n.current <;> simp [oneByOne]

/-- The notices of the failures were shown one at a time, and the last of them may be live. -/
structure Tells (b : Board) (troubles : List Trouble) : Prop where
  nextId : b.notifier.nextId = troubles.length + 1
  events : ∃ past, past ++ b.notifier.current.toList = numbered troubles ∧ b.events = oneByOne past b.notifier.current

theorem tells_nil : Tells ⟨{}, []⟩ [] := ⟨rfl, [], rfl, rfl⟩

variable {b : Board} {troubles : List Trouble}

theorem Tells.clear (h : b.Tells troubles) : b.clear.Tells troubles := by
  obtain ⟨past, hpast, hevents⟩ := h.events
  refine ⟨h.nextId, past ++ b.notifier.current.toList, by simpa [Board.clear, Notifier.clear] using hpast, ?_⟩
  rw [← show b.events ++ b.notifier.retract = b.clear.events from rfl, hevents, oneByOne_retract]
  rfl

theorem Tells.notify (h : b.Tells troubles) (trouble : Trouble) : (b.notify trouble).Tells (troubles ++ [trouble]) := by
  obtain ⟨past, hpast, hevents⟩ := h.events
  have hcurrent : (b.notify trouble).notifier.current = some (trouble.notice (troubles.length + 1)) := by
    rw [← h.nextId]
    rfl
  have hsent : (b.notify trouble).events =
      b.events ++ (b.notifier.retract ++ (b.notify trouble).notifier.current.toList.map .shown) := rfl
  refine ⟨by simp [Board.notify, Notifier.notify, h.nextId], past ++ b.notifier.current.toList, ?_, ?_⟩
  · rw [hpast, hcurrent, numbered_concat]
    rfl
  · rw [hsent, hevents, ← List.append_assoc, oneByOne_retract]
    simp [oneByOne]

/-! ### What the events of a board mean -/

theorem replay_oneByOne (past : List Notice) (last : Option Notice) :
    replay [] (oneByOne past last) = some last.toList := by
  induction past with
  | nil => cases last <;> rfl
  | cons n past ih => simpa [oneByOne_cons, replay] using ih

/-- Whatever is seen of notices that are shown one at a time, at most one of them is live. -/
theorem replay_prefix {past : List Notice} {last : Option Notice} {seen : List NoticeEvent}
    (h : seen <+: oneByOne past last) : ∃ live, replay [] seen = some live ∧ live.length ≤ 1 := by
  induction past generalizing seen with
  | nil =>
    rcases last with _ | n
    · obtain rfl := List.prefix_nil.mp h
      exact ⟨[], rfl, by simp⟩
    · rcases List.prefix_cons_iff.mp h with rfl | ⟨rest, rfl, hrest⟩
      · exact ⟨[], rfl, by simp⟩
      · obtain rfl := List.prefix_nil.mp hrest
        exact ⟨[n], rfl, by simp⟩
  | cons n past ih =>
    rcases List.prefix_cons_iff.mp h with rfl | ⟨first, rfl, hfirst⟩
    · exact ⟨[], rfl, by simp⟩
    rcases List.prefix_cons_iff.mp hfirst with rfl | ⟨second, rfl, hsecond⟩
    · exact ⟨[n], rfl, by simp⟩
    · simpa [replay] using ih hsecond

theorem filterMap_shown? (past : List Notice) (last : Option Notice) :
    (oneByOne past last).filterMap NoticeEvent.shown? = past ++ last.toList := by
  induction past with
  | nil => cases last <;> rfl
  | cons n past ih => exact congrArg (n :: ·) ih

theorem filterMap_expired? (past : List Notice) (last : Option Notice) :
    (oneByOne past last).filterMap NoticeEvent.expired? = past := by
  induction past with
  | nil => cases last <;> rfl
  | cons n past ih => exact congrArg (n :: ·) ih

/-- What a user sees of the board: at any time at most one live notice, in the end the notifier's own; every
failure shown once, in order, under growing numbers; and every notice but the live one expired once. -/
structure Shows (b : Board) (troubles : List Trouble) : Prop where
  live : replay [] b.events = some b.notifier.current.toList
  atMostOne : ∀ seen, seen <+: b.events → ∃ live, replay [] seen = some live ∧ live.length ≤ 1
  shown : b.events.filterMap NoticeEvent.shown? = numbered troubles
  expired : b.events.filterMap NoticeEvent.expired? ++ b.notifier.current.toList = numbered troubles
  ascending : ((b.events.filterMap NoticeEvent.shown?).map (·.id)).Pairwise (· < ·)

theorem Tells.shows (h : b.Tells troubles) : b.Shows troubles := by
  obtain ⟨past, hpast, hevents⟩ := h.events
  have hshown : b.events.filterMap NoticeEvent.shown? = numbered troubles := by
    rw [hevents, filterMap_shown?, hpast]
  refine ⟨?_, ?_, hshown, ?_, ?_⟩
  · rw [hevents, replay_oneByOne]
  · intro seen hseen
    rw [hevents] at hseen
    exact replay_prefix hseen
  · rw [hevents, filterMap_expired?, hpast]
  · rw [hshown, map_id_numbered]
    exact List.pairwise_lt_range'

end Board
end Restyle
