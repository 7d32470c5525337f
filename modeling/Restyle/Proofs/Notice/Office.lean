import Restyle.Proofs.Cli.Schedule
import Restyle.Proofs.Format.Session
import Restyle.Proofs.Notice.Board

/-! # Notices of many requests

An office works on requests that overlap in any way.  A request calls the notifier twice, when it begins and
when it ends; in between others may do so, and failures may be shown or notices cleared beside all requests.
-/
namespace Restyle
open Work

namespace Engine

def board (e : Engine) : Board := ⟨e.notifier, e.notices.toList⟩

/-! ### What work does to the board -/

theorem board_announce (events : List NoticeEvent) (e : Engine) :
    ((announce events).run e).2.board = ⟨e.notifier, e.notices.toList ++ events⟩ := by
  have hpushed : board { e with notices := events.foldl Array.push e.notices } =
      ⟨e.notifier, e.notices.toList ++ events⟩ := by simp [board]
  unfold announce
  rw [run_bind]
  refine Eq.trans (Keeps.bind Keeps.get (fun e => ?_) _) hpushed
  split
  · refine Keeps.forM (fun event => ?_) events
    cases event <;> exact fun _ => rfl
  · exact Keeps.pure _

theorem board_notify (file : String) (f : Failure) (e : Engine) :
    ((notify file f).run e).2.board = e.board.notify (file, f) :=
  board_announce _ _

theorem board_clearNotice (e : Engine) : (clearNotice.run e).2.board = e.board.clear := board_announce _ _

/-- Preparing a request calls the notifier nowhere. -/
theorem acrossRequests_board : AcrossRequests fun e after => after.board = e.board where
  refl _ := rfl
  trans h h' := h'.trans h
  debug _ _ := rfl
  search _ _ := rfl
  call _ _ := rfl
  agenda _ _ := rfl
  chains _ _ := rfl
  remember _ _ _ _ := rfl

end Engine

inductive Remark where
  | returned (file : String) (result : Except Failure Outcome)
  | notified (file : String) (f : Failure)

def Remark.trouble? : Remark → Option Trouble
  | returned _ (.ok _) => none
  | returned file (.error f) => some (file, f)
  | notified file f => some (file, f)

def Remark.IsLoud : Remark → Prop
  | returned _ (.error f) => f.isSilent = false
  | _ => True

namespace Board

def hear (b : Board) (remark : Option Remark) : Board := ((remark.bind Remark.trouble?).map b.notify).getD b

theorem Tells.hear {b : Board} {log : List Remark} (h : b.Tells (log.filterMap Remark.trouble?)) (remark : Option Remark) :
    (b.hear remark).Tells ((log ++ remark.toList).filterMap Remark.trouble?) := by
  cases remark with
  | none => simpa [Board.hear] using h
  | some remark =>
    cases htrouble : remark.trouble? with
    | none => simpa [Board.hear, htrouble] using h
    | some trouble => simpa [Board.hear, htrouble] using h.notify trouble

end Board

namespace Engine

/-- A request returns a result and shows it, if it is a failure. -/
structure Remarked (file : String) (before : Board) (result : Except Failure Outcome) (after : Board) : Prop where
  board : after = before.hear (some (.returned file result))
  isLoud : (Remark.returned file result).IsLoud

/-- A report shows the failure that it returns, and nothing else. -/
theorem remarked_report (file : String) (result : Except Failure Outcome) (e : Engine) :
    Remarked file e.board ((report file result).run e).1 ((report file result).run e).2.board := by
  rw [report_eq]
  rcases result with f | outcome
  · cases f <;> first | exact ⟨rfl, trivial⟩ | exact ⟨board_notify file _ _, rfl⟩
  · exact ⟨rfl, trivial⟩

def formatPrepared (file : String) (b : Buffer) :
    Except Failure Prepared → Work (Except Failure Outcome × Buffer)
  | .ok (.edit edit) => do
    let (result, b) ← apply file edit b
    return (← report file result, b)
  | .ok (.done outcome) => return (← report file (.ok outcome), b)
  | .error f => return (← report file (.error f), b)

theorem run_formatNow (file : String) (b : Buffer) (t : Token) (e : Engine) :
    (formatNow file b t).run e =
      (prepare file (Utf8.encode b.text) b.stamp t >>= formatPrepared file b).run (clearNotice.run e).2 := by
  unfold formatNow
  rw [Work.run_bind, Work.run_bind, Work.run_bind]
  generalize (prepare file (Utf8.encode b.text) b.stamp t).run (clearNotice.run e).2 = prepared
  obtain ⟨f | ⟨edit⟩ | outcome, after⟩ := prepared <;> rfl

theorem remarked_formatPrepared (file : String) (b : Buffer) (result : Except Failure Prepared) (e : Engine) :
    let formatted := (formatPrepared file b result).run e
    Remarked file e.board formatted.1.1 formatted.2.board := by
  rcases result with f | edit | outcome
  · exact remarked_report file (.error f) e
  · obtain ⟨lines, happly⟩ := run_apply file edit b e
    unfold formatPrepared
    rw [Work.run_bind, happly]
    exact remarked_report file (edit.apply b).1 { e with host := lines.foldl Host.debug e.host }
  · exact remarked_report file (.ok outcome) e

theorem remarked_conclude (file : String) (ticket : Ticket) (result : Except Failure Prepared) (e : Engine) :
    let concluded := (conclude file ticket result).run e
    Remarked file e.board concluded.1 concluded.2.board := by
  obtain ⟨lines, hconclude⟩ := run_conclude file ticket result e
  dsimp only at hconclude ⊢
  rw [hconclude]
  exact remarked_report file (e.desk.land ticket result).1
    { e with host := lines.foldl Host.debug e.host, desk := (e.desk.land ticket result).2 }

theorem remarked_formatNow (file : String) (b : Buffer) (t : Token) (e : Engine) :
    let formatted := (formatNow file b t).run e
    Remarked file e.board.clear formatted.1.1 formatted.2.board := by
  rw [run_formatNow, ← board_clearNotice, Work.run_bind]
  have hprepare := acrossRequests_board.moves_prepare file (Utf8.encode b.text) b.stamp t (clearNotice.run e).2
  rw [← hprepare]
  exact remarked_formatPrepared file b _ _

end Engine

/-- A request: one on a buffer that its caller waits for, or one on a document of the desk. -/
inductive Job where
  | waiting (b : Buffer) (t : Token)
  | background (ticket : Ticket)

namespace Job

def prepare (file : String) : Job → Work (Except Failure Prepared)
  | waiting b t => Engine.prepare file (Utf8.encode b.text) b.stamp t
  | background ticket => Engine.prepare file ticket.source ticket.stamp ticket.token

def finish (file : String) (result : Except Failure Prepared) : Job → Work (Except Failure Outcome)
  | waiting b _ => do return (← Engine.formatPrepared file b result).1
  | background ticket => Engine.conclude file ticket result

theorem board_prepare (file : String) (job : Job) (e : Engine) : ((job.prepare file).run e).2.board = e.board := by
  cases job <;> exact Engine.acrossRequests_board.moves_prepare file _ _ _ e

theorem remarked_finish (file : String) (result : Except Failure Prepared) (job : Job) (e : Engine) :
    let finished := (job.finish file result).run e
    Engine.Remarked file e.board finished.1 finished.2.board := by
  cases job with
  | waiting b t => exact Engine.remarked_formatPrepared file b result e
  | background ticket => exact Engine.remarked_conclude file ticket result e

end Job

structure Errand where
  file : String
  job : Job
  phase : Phase

structure Office where
  engine : Engine
  errands : List Errand := []
  log : List Remark := []

inductive Deed where
  | formatNow (file : String) (b : Buffer) (t : Token)
  /-- A request begins whose caller waits for it while others go on. -/
  | await (file : String) (b : Buffer) (t : Token)
  | start (file document : String) (t : Token)
  | prepare (place : Nat)
  | lose (place : Nat) (cause : Failure)
  | finish (place : Nat)
  | notify (file : String) (f : Failure)
  | clear
  /-- Anything but the notifier becomes as it is in another engine. -/
  | change (engine : Engine)

namespace Office

def answer (o : Office) (place : Nat) (result : Except Failure Prepared) : Office :=
  { o with errands := o.errands.modify place fun r => { r with phase := .prepared result } }

def step (o : Office) : Deed → Office
  | .formatNow file b t =>
    let (result, engine) := (Engine.formatNow file b t).run o.engine
    { o with engine, log := o.log ++ [.returned file result.1] }
  | .await file b t =>
    { o with engine := (Engine.clearNotice.run o.engine).2, errands := o.errands ++ [⟨file, .waiting b t, .working⟩] }
  | .start file document t =>
    let (ticket, engine) := (Engine.start document t).run o.engine
    { o with engine, errands := o.errands ++ [⟨file, .background ticket, .working⟩] }
  | .prepare place =>
    match o.errands[place]? with
    | some ⟨file, job, .working⟩ =>
      let (result, engine) := (job.prepare file).run o.engine
      { o.answer place result with engine }
    | _ => o
  | .lose place cause =>
    match o.errands[place]? with
    | some ⟨_, _, .working⟩ => o.answer place (.error cause)
    | _ => o
  | .finish place =>
    match o.errands[place]? with
    | some ⟨file, job, .prepared result⟩ =>
      let (outcome, engine) := (job.finish file result).run o.engine
      ⟨engine, o.errands.set place ⟨file, job, .ended outcome⟩, o.log ++ [.returned file outcome]⟩
    | _ => o
  | .notify file f =>
    { o with engine := ((Engine.notify file f).run o.engine).2, log := o.log ++ [.notified file f] }
  | .clear => { o with engine := (Engine.clearNotice.run o.engine).2 }
  | .change engine => { o with engine := { engine with notifier := o.engine.notifier, notices := o.engine.notices } }

def run (o : Office) (deeds : List Deed) : Office := deeds.foldl step o

def opened (e : Engine) : Office := { engine := { e with notifier := {}, notices := #[] } }

def troubles (o : Office) : List Trouble := o.log.filterMap Remark.trouble?

/-- What a deed does to the board: it may clear it, and then it shows what is remarked, which is at most one
failure. -/
theorem board_step (o : Office) (d : Deed) : ∃ remark : Option Remark,
    (o.step d).log = o.log ++ remark.toList ∧ (∀ r ∈ remark, r.IsLoud) ∧
    ((o.step d).engine.board = o.engine.board.hear remark ∨ (o.step d).engine.board = o.engine.board.clear.hear remark) := by
  have hnone : o.log = o.log ++ (none : Option Remark).toList := (List.append_nil _).symm
  have hloud : ∀ r ∈ (none : Option Remark), r.IsLoud := by simp
  cases d with
  | formatNow file b t =>
    obtain ⟨hboard, hloud⟩ := Engine.remarked_formatNow file b t o.engine
    refine ⟨some (.returned file ((Engine.formatNow file b t).run o.engine).1.1), rfl, ?_, .inr hboard⟩
    simpa using hloud
  | await file b t => exact ⟨none, hnone, hloud, .inr (Engine.board_clearNotice o.engine)⟩
  | start file document t => exact ⟨none, hnone, hloud, .inr (Engine.board_clearNotice o.engine)⟩
  | prepare place =>
    simp only [step]
    split
    · rename_i file job _
      exact ⟨none, hnone, hloud, .inl (job.board_prepare file o.engine)⟩
    · exact ⟨none, hnone, hloud, .inl rfl⟩
  | lose place cause =>
    simp only [step]
    split <;> exact ⟨none, hnone, hloud, .inl rfl⟩
  | finish place =>
    simp only [step]
    split
    · rename_i file job result _
      obtain ⟨hboard, hloud⟩ := job.remarked_finish file result o.engine
      refine ⟨some (.returned file ((job.finish file result).run o.engine).1), rfl, ?_, .inl hboard⟩
      simpa using hloud
    · exact ⟨none, hnone, hloud, .inl rfl⟩
  | notify file f => exact ⟨some (.notified file f), rfl, by simp [Remark.IsLoud], .inl (Engine.board_notify file f o.engine)⟩
  | clear => exact ⟨none, hnone, hloud, .inr (Engine.board_clearNotice o.engine)⟩
  | change engine => exact ⟨none, hnone, hloud, .inl rfl⟩

structure Told (o : Office) : Prop where
  board : o.engine.board.Tells o.troubles
  isLoud : ∀ r ∈ o.log, r.IsLoud

theorem Told.step {o : Office} (h : o.Told) (d : Deed) : (o.step d).Told := by
  obtain ⟨remark, hlog, hloud, hboard⟩ := o.board_step d
  constructor
  · unfold troubles
    rw [hlog]
    rcases hboard with hboard | hboard <;> rw [hboard]
    · exact h.board.hear remark
    · exact h.board.clear.hear remark
  · rw [hlog]
    intro r hr
    rcases List.mem_append.mp hr with hr | hr
    · exact h.isLoud r hr
    · exact hloud r (by simpa using hr)

theorem Told.run {o : Office} (h : o.Told) (deeds : List Deed) : (o.run deeds).Told := by
  induction deeds generalizing o with
  | nil => exact h
  | cons d deeds ih => exact ih (h.step d)

theorem told_opened (e : Engine) : (opened e).Told := ⟨Board.tells_nil, by simp [opened]⟩

theorem shown_step {o : Office} (h : o.Told) (d : Deed) : ∃ remark : Option Remark,
    (o.step d).log = o.log ++ remark.toList ∧
    (o.step d).engine.board.events.filterMap NoticeEvent.shown? = o.engine.board.events.filterMap NoticeEvent.shown? ++
      (remark.bind Remark.trouble?).toList.map (·.notice (o.troubles.length + 1)) := by
  obtain ⟨remark, hlog, -⟩ := o.board_step d
  refine ⟨remark, hlog, ?_⟩
  rw [(h.step d).board.shows.shown, h.board.shows.shown, troubles, hlog, List.filterMap_append]
  cases remark with
  | none => simp [troubles]
  | some remark =>
    cases htrouble : remark.trouble? with
    | none => simp [htrouble, troubles]
    | some trouble => simp [htrouble, numbered_concat, troubles]

/-- However requests overlap, with whatever is shown and cleared beside them: at most one notice is live at any
time, and it is the notifier's own.  A request shows exactly the failure that it returns, under a number greater
than all before, and this is no silent one.  After a request that is made at once, just its own failure is live,
if it has one. -/
theorem shows_run (e : Engine) (deeds : List Deed) :
    let o := (opened e).run deeds
    o.engine.board.Shows o.troubles ∧
    (∀ file f, .returned file (.error f) ∈ o.log → f.isSilent = false) ∧
    (∀ d, ∃ remark : Option Remark, (o.step d).log = o.log ++ remark.toList ∧
      (o.step d).engine.board.events.filterMap NoticeEvent.shown? = o.engine.board.events.filterMap NoticeEvent.shown? ++
        (remark.bind Remark.trouble?).toList.map (·.notice (o.troubles.length + 1))) ∧
    ∀ file b t, ∃ result, (o.step (.formatNow file b t)).log = o.log ++ [.returned file result] ∧
      (o.step (.formatNow file b t)).engine.notifier.current =
        (Remark.returned file result).trouble?.map (·.notice (o.troubles.length + 1)) := by
  have htold := (told_opened e).run deeds
  refine ⟨htold.board.shows, fun file f hmem => htold.isLoud _ hmem, shown_step htold, ?_⟩
  intro file b t
  let result := ((Engine.formatNow file b t).run ((opened e).run deeds).engine).1.1
  refine ⟨result, rfl, ?_⟩
  obtain ⟨hboard, -⟩ := Engine.remarked_formatNow file b t ((opened e).run deeds).engine
  refine (congrArg (·.notifier.current) hboard).trans ?_
  change (Board.hear _ (some (.returned file result))).notifier.current = _
  generalize result = result
  rcases result with f | outcome
  · rw [← htold.board.nextId]
    rfl
  · rfl

end Office
end Restyle
