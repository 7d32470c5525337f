import Restyle.Proofs.Format.Desk

/-! # The course of a request

Work on a request changes an engine in a few ways only: it logs, looks for the tool, calls it, lets the
agenda happen, and remembers chains and styles.  A relation that holds across each of these holds across
the whole work.
-/
namespace Restyle

namespace Work

variable {α : Type}

def Moves (R : Engine → Engine → Prop) (w : Work α) : Prop := ∀ e, R e (w.run e).2

end Work

open Work

def Engine.searched (e : Engine) : Engine :=
  { e with
    foundTool := e.host.executable? "clang-format"
    host := { e.host with searches := e.host.searches + 1 } }

/-- A relation that holds across a search for the tool, which is made only while no found file is there. -/
structure AcrossSearches (R : Engine → Engine → Prop) : Prop where
  refl : ∀ e, R e e
  trans : ∀ {e mid after}, R e mid → R mid after → R e after
  debug : ∀ e line, R e { e with host := e.host.debug line }
  search : ∀ e : Engine, e.foundTool.filter e.host.files.isFile = none → R e e.searched

namespace AcrossSearches

variable {α β : Type} {R : Engine → Engine → Prop}

theorem pure (h : AcrossSearches R) (a : α) : Moves R (Pure.pure a) := h.refl

theorem bind (h : AcrossSearches R) {w : Work α} {f : α → Work β} (hw : Moves R w) (hf : ∀ a, Moves R (f a)) :
    Moves R (w >>= f) := fun e => h.trans (hw e) (hf (w.run e).1 (w.run e).2)

theorem get_bind (h : AcrossSearches R) {f : Engine → Work β} (hf : ∀ e, Moves R (f e)) :
    Moves R (MonadState.get >>= f) := h.bind h.refl hf

theorem debug_bind (h : AcrossSearches R) {line : String} {f : Unit → Work β} (hf : ∀ a, Moves R (f a)) :
    Moves R (Engine.debug line >>= f) := h.bind (fun e => h.debug e line) hf

theorem moves_findByName (h : AcrossSearches R) : Moves R Engine.findByName := by
  intro e
  unfold Engine.findByName
  rw [Work.run_bind]
  dsimp only
  -- The engine that is put in place is made from the one that was read, so the two are taken together.
  split
  · exact h.refl e
  · rename_i hnone
    refine h.trans (h.search e hnone) ?_
    rw [Work.run_bind]
    split
    · exact h.debug_bind (fun _ => h.pure _) e.searched
    · exact h.refl e.searched

theorem moves_toolPath (h : AcrossSearches R) : Moves R Engine.toolPath := by
  unfold Engine.toolPath
  refine h.get_bind fun e => ?_
  split
  · exact h.moves_findByName
  · refine h.bind h.refl fun path => h.get_bind fun e => ?_
    split
    · exact h.pure _
    · exact h.debug_bind fun _ => h.pure _

end AcrossSearches

def Engine.MayWait (e : Engine) : Prop :=
  ∃ tool, e.host.tool = some tool ∧ ∃ files number c, (tool files number c).waits = true

/-- A relation that holds across all that is done to call the tool.  The agenda happens only while it keeps a
call waiting. -/
structure AcrossCalls (R : Engine → Engine → Prop) : Prop extends AcrossSearches R where
  call : ∀ e c, R e { e with host := { e.host with calls := e.host.calls.push c } }
  agenda : ∀ e : Engine, e.MayWait → R e (Engine.runAgenda.run e).2

namespace AcrossCalls

variable {R : Engine → Engine → Prop}

theorem moves_call (h : AcrossCalls R) (c : Invocation) (input : Option (List UInt8)) (t : Token) :
    Moves R (Engine.call c input t) := by
  intro e
  unfold Engine.call
  rw [Work.run_bind]
  split
  · exact h.refl e
  rw [Work.run_bind, Work.run_bind]
  have hcall := h.call e ⟨c, input⟩
  split
  · exact hcall
  · rename_i tool htool
    refine h.trans hcall ?_
    dsimp only
    split
    · rename_i hwaits
      have hmay : Engine.MayWait { e with host := { e.host with calls := e.host.calls.push ⟨c, input⟩ } } :=
        ⟨tool, htool, _, _, _, hwaits⟩
      refine h.trans (h.agenda _ hmay) ?_
      rw [Work.run_bind, Work.run_bind]
      split <;> exact h.refl _
    · exact h.refl _

theorem moves_invoke (h : AcrossCalls R) (c : Invocation) (input : Option (List UInt8)) (t : Token) :
    Moves R (Engine.invoke c input t) := by
  unfold Engine.invoke
  refine h.debug_bind fun _ => h.bind (h.moves_call c input t) fun result => ?_
  split <;> exact h.debug_bind fun _ => h.pure _

theorem moves_computeStyle (h : AcrossCalls R) (path : String) (key : DependencyKey) (t : Token) :
    Moves R (Engine.computeStyle path key t) := by
  unfold Engine.computeStyle
  split
  · exact h.pure _
  split
  · exact h.pure _
  refine h.bind h.refl fun command => h.bind (h.moves_invoke _ _ _) fun result => ?_
  split
  · exact h.pure _
  · split <;> exact h.pure _

theorem moves_requestEdit (h : AcrossCalls R) (file : String) (source : List UInt8) (stamp : Nat) (t : Token) :
    Moves R (Engine.requestEdit file source stamp t) := by
  unfold Engine.requestEdit
  refine h.debug_bind fun _ => h.bind h.moves_toolPath fun tool => ?_
  split
  · exact h.pure _
  refine h.bind h.refl fun command => h.debug_bind fun _ => h.bind (h.moves_invoke _ _ _) fun answer => ?_
  split
  · exact h.pure _
  split
  · exact h.pure _
  refine h.debug_bind fun _ => ?_
  split
  · exact h.pure _
  dsimp only
  split
  · exact h.debug_bind fun _ => h.pure _
  · exact h.pure _

end AcrossCalls

/-- A relation that holds across all that is done to prepare a request. -/
structure AcrossRequests (R : Engine → Engine → Prop) : Prop extends AcrossCalls R where
  chains : ∀ e path, R e ((Engine.configFiles path).run e).2
  remember : ∀ e path key result, R e { e with styles := e.styles.remember path key result }

namespace AcrossRequests

variable {R : Engine → Engine → Prop}

theorem moves_dependencyKey (h : AcrossRequests R) (path : String) : Moves R (Engine.dependencyKey path) := by
  unfold Engine.dependencyKey
  refine h.bind (fun e => h.chains e path) fun configs => h.get_bind fun e => ?_
  exact h.bind h.moves_toolPath fun tool => h.get_bind fun e => h.pure _

theorem moves_styleFor (h : AcrossRequests R) (path : String) (t : Token) : Moves R (Engine.styleFor path t) := by
  unfold Engine.styleFor
  refine h.bind (h.moves_dependencyKey path) fun key => h.get_bind fun e => ?_
  split
  · exact h.pure _
  · refine h.bind (h.moves_computeStyle path key t) fun result => ?_
    exact h.bind (fun e => h.remember e path key result) fun _ => h.pure _

theorem moves_reason? (h : AcrossRequests R) (file : String) (t : Token) : Moves R (Engine.reason? file t) := by
  unfold Engine.reason?
  refine h.get_bind fun e => ?_
  split
  · exact h.pure _
  split
  · exact h.pure _
  refine h.bind (h.bind (fun e => h.chains e file) fun configs => h.pure _) fun configured => ?_
  split
  · exact h.pure _
  refine h.bind (h.moves_styleFor file t) fun result => ?_
  split
  · split <;> exact h.pure _
  all_goals exact h.pure _

theorem moves_prepare (h : AcrossRequests R) (file : String) (source : List UInt8) (stamp : Nat) (t : Token) :
    Moves R (Engine.prepare file source stamp t) := by
  unfold Engine.prepare
  refine h.debug_bind fun _ => h.bind (h.moves_reason? file t) fun reason => ?_
  split
  · exact h.pure _
  · exact h.debug_bind fun _ => h.pure _
  · exact h.moves_requestEdit file source stamp t

end AcrossRequests

/-! ### Progress -/

namespace Engine

def surroundings (e : Engine) : Settings × FileStore × List (String × String) × String × Option Tool :=
  (e.settings, e.host.files, e.host.executables, e.host.directory, e.host.tool)

/-- How an engine may come out of preparing a request: with the same surroundings, with further calls and
further cancelled tokens, and without an agenda with the same desk. -/
structure Progress (e after : Engine) : Prop where
  surroundings : after.surroundings = e.surroundings
  found : after.foundTool = e.foundTool ∨ after.foundTool = e.host.executable? "clang-format"
  calls : ∀ (number : Nat) (c : Call), e.host.calls[number]? = some c → after.host.calls[number]? = some c
  cancelled : ∀ t, e.desk.isCancelled t = true → after.desk.isCancelled t = true
  idle : e.agenda = [] → after.desk = e.desk ∧ after.agenda = []

namespace Progress

variable {e mid after : Engine}

theorem settings (h : e.Progress after) : after.settings = e.settings := congrArg (·.1) h.surroundings

theorem files (h : e.Progress after) : after.host.files = e.host.files := congrArg (·.2.1) h.surroundings

theorem executables (h : e.Progress after) : after.host.executables = e.host.executables :=
  congrArg (·.2.2.1) h.surroundings

theorem directory (h : e.Progress after) : after.host.directory = e.host.directory :=
  congrArg (·.2.2.2.1) h.surroundings

theorem tool (h : e.Progress after) : after.host.tool = e.host.tool := congrArg (·.2.2.2.2) h.surroundings

theorem of_same (hs : after.surroundings = e.surroundings) (hf : after.foundTool = e.foundTool)
    (hc : after.host.calls = e.host.calls) (hd : after.desk = e.desk) (ha : after.agenda = e.agenda) :
    e.Progress after := by
  refine ⟨hs, Or.inl hf, ?_, ?_, ?_⟩
  · rw [hc]
    exact fun _ _ h => h
  · rw [hd]
    exact fun _ h => h
  · rw [hd, ha]
    exact fun h => ⟨rfl, h⟩

theorem trans (h : e.Progress mid) (h' : mid.Progress after) : e.Progress after := by
  constructor
  · exact h'.surroundings.trans h.surroundings
  · rcases h'.found with hf | hf
    · rw [hf]
      exact h.found
    · right
      rw [hf, Host.executable?, h.executables, Host.executable?]
  · intro number c hc
    exact h'.calls number c (h.calls number c hc)
  · intro t ht
    exact h'.cancelled t (h.cancelled t ht)
  · intro ha
    obtain ⟨hd, ha⟩ := h.idle ha
    rw [← hd]
    exact h'.idle ha

end Progress

theorem run_debug (line : String) (e : Engine) :
    ∃ err, (debug line).run e = ((), { e with host := { e.host with err } }) := by
  obtain ⟨err, h⟩ := e.host.debug_eq line
  exact ⟨err, Prod.ext rfl (congrArg (fun host => { e with host }) h)⟩

theorem desk_runAgenda (e : Engine) : (runAgenda.run e).2.desk = e.agenda.foldl Desk.step e.desk := by
  have hfold (steps : List DeskStep) (d : Desk) (seen : List Desk) :
      (steps.foldl (fun (acc : Desk × List Desk) s => (acc.1.step s, acc.2 ++ [acc.1.step s])) (d, seen)).1 =
        steps.foldl Desk.step d := by
    induction steps generalizing d seen with
    | nil => rfl
    | cons s steps ih => exact ih (d.step s) _
  exact hfold e.agenda e.desk e.seen

theorem isCancelled_runAgenda {e : Engine} {t : Token} (h : e.desk.isCancelled t = true) :
    (runAgenda.run e).2.desk.isCancelled t = true := by
  rw [desk_runAgenda]
  generalize e.desk = d at h
  induction e.agenda generalizing d with
  | nil => exact h
  | cons s steps ih => exact ih (d.step s) (Desk.isCancelled_step h s)

theorem acrossRequests_progress : AcrossRequests Progress where
  refl e := Progress.of_same rfl rfl rfl rfl rfl
  trans := Progress.trans
  debug e line := by
    obtain ⟨err, h⟩ := e.host.debug_eq line
    rw [h]
    exact Progress.of_same rfl rfl rfl rfl rfl
  search e _ := ⟨rfl, Or.inr rfl, fun _ _ h => h, fun _ h => h, fun h => ⟨rfl, h⟩⟩
  call e c := by
    refine ⟨rfl, Or.inl rfl, ?_, fun _ h => h, fun h => ⟨rfl, h⟩⟩
    intro number old h
    obtain ⟨hlt, hget⟩ := Array.getElem?_eq_some_iff.mp h
    exact (Array.getElem?_push_lt hlt).trans (congrArg some hget)
  agenda e _ := by
    refine ⟨rfl, Or.inl rfl, fun _ _ h => h, fun t h => isCancelled_runAgenda h, ?_⟩
    intro h
    exact ⟨by rw [desk_runAgenda, h]; rfl, rfl⟩
  chains e path := Progress.of_same rfl rfl rfl rfl rfl
  remember e path key result := Progress.of_same rfl rfl rfl rfl rfl

/-- Where the tool keeps no call waiting, nothing happens on the desk. -/
theorem acrossRequests_desk : AcrossRequests fun e after =>
    after.host.tool = e.host.tool ∧ (¬e.MayWait → after.desk = e.desk) where
  refl _ := ⟨rfl, fun _ => rfl⟩
  trans {e mid after} h h' := by
    refine ⟨h'.1.trans h.1, fun hwait => ?_⟩
    have hmid : ¬mid.MayWait := by
      unfold MayWait at hwait ⊢
      rw [h.1]
      exact hwait
    exact (h'.2 hmid).trans (h.2 hwait)
  debug e line := by
    obtain ⟨err, h⟩ := e.host.debug_eq line
    rw [h]
    exact ⟨rfl, fun _ => rfl⟩
  search _ _ := ⟨rfl, fun _ => rfl⟩
  call _ _ := ⟨rfl, fun _ => rfl⟩
  agenda _ hmay := ⟨rfl, fun hwait => absurd hmay hwait⟩
  chains _ _ := ⟨rfl, fun _ => rfl⟩
  remember _ _ _ _ := ⟨rfl, fun _ => rfl⟩

end Engine
end Restyle
