import Restyle.Format.Engine

/-! # Reasoning about work

Two kinds of statements about work on the engine: what it answers, whatever the engine is, and which
view of the engine it leaves as it is.  Both follow the structure of the work.
-/
namespace Restyle

namespace Work

variable {α β γ : Type}

def Returns (w : Work α) (P : α → Prop) : Prop := ∀ e, P (w.run e).1

/-- A view of the engine is the same before and after. -/
def Keeps (view : Engine → γ) (w : Work α) : Prop := ∀ e, view (w.run e).2 = view e

theorem run_bind (w : Work α) (f : α → Work β) (e : Engine) :
    (w >>= f).run e = (f (w.run e).1).run (w.run e).2 := rfl

theorem run_pure (a : α) (e : Engine) : (Pure.pure a : Work α).run e = (a, e) := rfl

theorem run_get_bind (f : Engine → Work α) (e : Engine) : (get >>= f : Work α).run e = (f e).run e := rfl

theorem Returns.pure {a : α} {P : α → Prop} (h : P a) : Returns (Pure.pure a) P := fun _ => h

theorem Returns.bind {w : Work α} {f : α → Work β} {P : β → Prop} (h : ∀ a, Returns (f a) P) :
    Returns (w >>= f) P := fun e => h (w.run e).1 (w.run e).2

variable {view : Engine → γ}

theorem Keeps.pure (a : α) : Keeps view (Pure.pure a) := fun _ => rfl

theorem Keeps.bind {w : Work α} {f : α → Work β} (hw : Keeps view w) (hf : ∀ a, Keeps view (f a)) :
    Keeps view (w >>= f) := fun e => (hf (w.run e).1 (w.run e).2).trans (hw e)

theorem Keeps.get : Keeps view (MonadState.get : Work Engine) := fun _ => rfl

theorem Keeps.modify {f : Engine → Engine} (h : ∀ e, view (f e) = view e) :
    Keeps view (modify f : Work Unit) := h

theorem Keeps.forM {f : α → Work PUnit} (h : ∀ a, Keeps view (f a)) (as : List α) : Keeps view (as.forM f) := by
  induction as with
  | nil => exact Keeps.pure _
  | cons a as ih => exact Keeps.bind (h a) fun _ => ih

end Work

/-! ### What is logged -/

namespace Host

theorem debug_eq (h : Host) (line : String) : ∃ err, h.debug line = { h with err } := by
  unfold debug
  split
  · exact ⟨_, rfl⟩
  · exact ⟨h.err, rfl⟩

theorem error_eq (h : Host) (line : String) : ∃ err, h.error line = { h with err } := by
  unfold error
  split
  · exact ⟨_, rfl⟩
  · exact ⟨h.err, rfl⟩

end Host

/-- A view that shows neither what is logged nor what happens to notices. -/
structure Unlogged {γ : Type} (view : Engine → γ) : Prop where
  debug : ∀ e line, view { e with host := e.host.debug line } = view e
  error : ∀ e line, view { e with host := e.host.error line } = view e
  notifier : ∀ e notifier, view { e with notifier } = view e
  notices : ∀ e notices, view { e with notices } = view e

namespace Unlogged
open Work

variable {γ : Type} {view : Engine → γ}

theorem of_err (herr : ∀ e err, view { e with host := { e.host with err } } = view e)
    (hnotifier : ∀ e notifier, view { e with notifier } = view e)
    (hnotices : ∀ e notices, view { e with notices } = view e) : Unlogged view := by
  refine ⟨?_, ?_, hnotifier, hnotices⟩
  · intro e line
    obtain ⟨err, h⟩ := e.host.debug_eq line
    rw [h]
    exact herr e err
  · intro e line
    obtain ⟨err, h⟩ := e.host.error_eq line
    rw [h]
    exact herr e err

theorem keeps_debug (h : Unlogged view) (line : String) : Keeps view (Engine.debug line) :=
  Keeps.modify fun e => h.debug e line

theorem keeps_announce (h : Unlogged view) (events : List NoticeEvent) : Keeps view (Engine.announce events) := by
  unfold Engine.announce
  refine Keeps.bind (Keeps.modify fun e => h.notices e _) fun _ => Keeps.bind Keeps.get fun e => ?_
  split
  · refine Keeps.forM (fun event => ?_) events
    cases event with
    | shown n => exact Keeps.modify fun e => h.error e n.line
    | expired n => exact h.keeps_debug _
  · exact Keeps.pure _

theorem keeps_notify (h : Unlogged view) (file : String) (f : Failure) : Keeps view (Engine.notify file f) := by
  unfold Engine.notify
  refine Keeps.bind Keeps.get fun e => ?_
  exact Keeps.bind (Keeps.modify fun e => h.notifier e _) fun _ =>
    Keeps.bind (h.keeps_announce _) fun _ => Keeps.pure _

theorem keeps_report (h : Unlogged view) (file : String) (result : Except Failure Outcome) :
    Keeps view (Engine.report file result) := by
  unfold Engine.report
  split
  · exact Keeps.pure _
  · exact Keeps.bind (h.keeps_debug _) fun _ => Keeps.pure _
  · exact Keeps.pure _
  · exact Keeps.pure _
  · exact Keeps.bind (h.keeps_debug _) fun _ => Keeps.bind (h.keeps_notify file _) fun _ => Keeps.pure _

theorem debugs (h : Unlogged view) (lines : List String) (e : Engine) :
    view { e with host := lines.foldl Host.debug e.host } = view e := by
  induction lines generalizing e with
  | nil => rfl
  | cons line lines ih => exact (ih { e with host := e.host.debug line }).trans (h.debug e line)

theorem keeps_clearNotice (h : Unlogged view) : Keeps view Engine.clearNotice := by
  unfold Engine.clearNotice
  refine Keeps.bind Keeps.get fun e => ?_
  exact Keeps.bind (Keeps.modify fun e => h.notifier e _) fun _ => h.keeps_announce _

end Unlogged

/-! ### Requests on the desk -/

namespace Engine

theorem unlogged_desk : Unlogged Engine.desk := .of_err (fun _ _ => rfl) (fun _ _ => rfl) (fun _ _ => rfl)

/-- The engine logs lines and otherwise applies an edit as a function of the document. -/
theorem run_apply (file : String) (edit : PreparedEdit) (b : Buffer) (e : Engine) :
    ∃ lines : List String, (apply file edit b).run e =
      (edit.apply b, { e with host := lines.foldl Host.debug e.host }) := by
  let line (s : Stage) : String := s!"{s.name}: {file}"
  unfold apply PreparedEdit.apply
  split
  · exact ⟨[s!"Discarding the result for {file} because the document changed."], rfl⟩
  split
  · exact ⟨[line .done], rfl⟩
  rcases applyReplacements edit.source b edit.response with ⟨after, _ | cause⟩
  · exact ⟨[line .locating, line .applying, line .done], rfl⟩
  · exact ⟨[line .locating, line .applying], rfl⟩

theorem run_land (file : String) (ticket : Ticket) (result : Except Failure Prepared) (e : Engine) :
    ∃ lines : List String, (land file ticket result).run e = ((e.desk.land ticket result).1,
      { e with host := lines.foldl Host.debug e.host, desk := (e.desk.land ticket result).2 }) := by
  rcases result with f | edit | outcome
  · exact ⟨[], rfl⟩
  · unfold land Desk.land
    by_cases hcancelled : e.desk.isCancelled ticket.token = true
    · refine ⟨[], ?_⟩
      simp only [if_pos hcancelled, Work.run_get_bind]
      rfl
    · obtain ⟨lines, happly⟩ := run_apply file edit (e.desk.document ticket.document) e
      refine ⟨lines, ?_⟩
      simp only [if_neg hcancelled, Work.run_get_bind]
      rw [Work.run_bind, happly]
      rfl
  · exact ⟨[], rfl⟩

/-- A request ends with the report of how its result landed on the desk, and without its entry. -/
theorem run_conclude (file : String) (ticket : Ticket) (result : Except Failure Prepared) (e : Engine) :
    ∃ lines : List String,
      let landed := { e with host := lines.foldl Host.debug e.host, desk := (e.desk.land ticket result).2 }
      let reported := (report file (e.desk.land ticket result).1).run landed
      (conclude file ticket result).run e =
        (reported.1, { reported.2 with desk := reported.2.desk.unregister ticket.id }) := by
  obtain ⟨lines, hland⟩ := run_land file ticket result e
  refine ⟨lines, ?_⟩
  unfold conclude
  rw [Work.run_bind, hland]
  rfl

/-- A request begins on the desk as it is. -/
theorem start_eq (document : String) (t : Token) (e : Engine) :
    ((start document t).run e).1 = (e.desk.start document t).1 ∧
      ((start document t).run e).2.desk = (e.desk.start document t).2 := by
  have hclear : ((clearNotice).run e).2.desk = e.desk := unlogged_desk.keeps_clearNotice e
  rw [← hclear]
  exact ⟨rfl, rfl⟩

end Engine
end Restyle
