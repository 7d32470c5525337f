import Restyle.Proofs.Format.Course

/-! # What the tool answers

A call is answered by the tool of the host, unless it is cancelled.  An edit that was prepared for the
bytes of a file is the tool's answer to a call with exactly these bytes.
-/
namespace Restyle
open Work

def Host.answer (h : Host) (number : Nat) (c : Call) : Except Failure ToolOutput :=
  match h.tool with
  | none => .error (.process s!"No process handler for {c.invocation.display}")
  | some tool => (tool h.files number c).result

def Host.placed (h : Host) (file : String) (c : Invocation) : Invocation :=
  { c with directory := (Path.parent? file).filter h.files.isDirectory }

namespace Engine

theorem call_cases (c : Invocation) (input : Option (List UInt8)) (t : Token) (e : Engine) :
    ((call c input t).run e).1 = .error .cancelled ∧ ((call c input t).run e).2.desk.isCancelled t = true ∨
      ((call c input t).run e).1 = e.host.answer e.host.calls.size ⟨c, input⟩ ∧
        ((call c input t).run e).2.host.calls = e.host.calls.push ⟨c, input⟩ := by
  unfold call
  rw [Work.run_bind]
  split
  · rename_i hc
    exact Or.inl ⟨rfl, hc⟩
  rw [Work.run_bind, Work.run_bind]
  split
  · rename_i ht
    have ht : e.host.tool = none := ht
    rw [Host.answer, ht]
    exact Or.inr ⟨rfl, rfl⟩
  · rename_i tool ht
    have ht : e.host.tool = some tool := ht
    rw [Host.answer, ht]
    dsimp only
    split
    · rw [Work.run_bind, Work.run_bind]
      split
      · rename_i hc
        exact Or.inl ⟨rfl, (Bool.and_eq_true_iff.mp hc).2⟩
      · exact Or.inr ⟨rfl, rfl⟩
    · exact Or.inr ⟨rfl, rfl⟩

theorem answer_debug (h : Host) (line : String) (number : Nat) (c : Call) :
    (h.debug line).answer number c = h.answer number c := by
  obtain ⟨err, he⟩ := h.debug_eq line
  rw [he]
  rfl

theorem calls_debug (h : Host) (line : String) : (h.debug line).calls = h.calls := by
  obtain ⟨err, he⟩ := h.debug_eq line
  rw [he]

theorem run_invoke (c : Invocation) (input : Option (List UInt8)) (t : Token) (e : Engine) :
    ∃ first last : String, let called := (call c input t).run { e with host := e.host.debug first }
      (invoke c input t).run e = (called.1, { called.2 with host := called.2.host.debug last }) := by
  unfold invoke
  rw [Work.run_bind, Work.run_bind]
  split
  · exact ⟨_, _, rfl⟩
  · exact ⟨_, _, rfl⟩

theorem invoke_cases (c : Invocation) (input : Option (List UInt8)) (t : Token) (e : Engine) :
    ((invoke c input t).run e).1 = .error .cancelled ∧ ((invoke c input t).run e).2.desk.isCancelled t = true ∨
      ((invoke c input t).run e).1 = e.host.answer e.host.calls.size ⟨c, input⟩ ∧
        ((invoke c input t).run e).2.host.calls = e.host.calls.push ⟨c, input⟩ := by
  obtain ⟨first, last, hrun⟩ := run_invoke c input t e
  have hcases := call_cases c input t { e with host := e.host.debug first }
  dsimp only at hrun hcases
  rw [calls_debug, answer_debug] at hcases
  rw [hrun, calls_debug]
  exact hcases

def located (e : Engine) : Option String :=
  match e.settings.clangFormatPath with
  | none => (e.foundTool.filter e.host.files.isFile).or (e.host.executable? "clang-format")
  | some given => (some (e.host.absolute (Text.trim given))).filter e.host.files.isFile

theorem run_findByName (e : Engine) : (findByName.run e).1 =
    (e.foundTool.filter e.host.files.isFile).or (e.host.executable? "clang-format") := by
  unfold findByName
  rw [Work.run_bind]
  split
  · rename_i path hf
    have hf : e.foundTool.filter e.host.files.isFile = some path := hf
    rw [hf]
    rfl
  · rename_i hf
    have hf : e.foundTool.filter e.host.files.isFile = none := hf
    rw [hf, Work.run_bind]
    split <;> rfl

theorem run_toolPath (e : Engine) : (toolPath.run e).1 = e.located := by
  unfold toolPath located
  rw [Work.run_bind]
  split
  · rename_i hs
    have hs : e.settings.clangFormatPath = none := hs
    rw [hs]
    exact run_findByName e
  · rename_i given hs
    have hs : e.settings.clangFormatPath = some given := hs
    have hcustom : (customPath given).run e = (e.host.absolute (Text.trim given), e) := rfl
    have hget : (get : Work Engine).run e = (e, e) := rfl
    rw [hs, Work.run_bind, Work.run_bind, hget, hcustom, hget]
    dsimp only
    generalize e.host.absolute (Text.trim given) = path
    rw [Option.filter_some]
    split <;> rfl

end Engine

/-! ### Edits are answers -/

namespace Host

def Ran (h : Host) (calls : Array Call) (c : Call) (output : ToolOutput) : Prop :=
  ∃ number : Nat, calls[number]? = some c ∧ h.answer number c = .ok output

def Answered (h : Host) (calls : Array Call) (file : String) (source : List UInt8) (response : Response) : Prop :=
  ∃ tool output, h.Ran calls ⟨h.placed file (Invocation.format tool file false), some source⟩ output ∧
    output.success = true ∧ Response.decode output.text = .ok response

theorem Answered.of_eq {h other : Host} (hf : h.files = other.files) (ht : h.tool = other.tool) {calls : Array Call}
    {file : String} {source : List UInt8} {response : Response} (ha : h.Answered calls file source response) :
    other.Answered calls file source response := by
  unfold Answered Ran answer placed at ha ⊢
  rw [hf, ht] at ha
  exact ha

theorem Answered.later {h : Host} {calls more : Array Call} (hc : ∀ (number : Nat) (c : Call),
    calls[number]? = some c → more[number]? = some c) {file : String} {source : List UInt8} {response : Response}
    (ha : h.Answered calls file source response) : h.Answered more file source response := by
  obtain ⟨tool, output, ⟨number, hcall, hrun⟩, hrest⟩ := ha
  exact ⟨tool, output, ⟨number, hc number _ hcall, hrun⟩, hrest⟩

end Host

namespace Engine

variable {file : String} {source : List UInt8} {e mid : Engine}

theorem Progress.placed (h : e.Progress mid) : mid.host.placed file = e.host.placed file := by
  unfold Host.placed
  rw [h.files]

theorem Progress.answer (h : e.Progress mid) : mid.host.answer = e.host.answer := by
  unfold Host.answer
  rw [h.files, h.tool]

theorem Progress.ran (h : e.Progress mid) {c : Call} {output : ToolOutput} (hr : e.host.Ran e.host.calls c output) :
    mid.host.Ran mid.host.calls c output := by
  obtain ⟨number, hcall, hanswer⟩ := hr
  refine ⟨number, h.calls number c hcall, ?_⟩
  rw [h.answer]
  exact hanswer

/-- An edit that work ends with is an answer of the tool for the bytes of a file. -/
def Delivers (file : String) (source : List UInt8) (e : Engine) (w : Work (Except Failure Prepared)) : Prop :=
  ∀ edit, (w.run e).1 = .ok (.edit edit) → e.host.Answered (w.run e).2.host.calls file source edit.response

namespace Delivers

variable {α : Type}

theorem error (f : Failure) : Delivers file source e (pure (.error f)) := by
  intro edit h
  cases h

theorem done (o : Outcome) : Delivers file source e (pure (.ok (.done o))) := by
  intro edit h
  cases h

theorem edit {response : Response} (stamp : Nat) (h : e.host.Answered e.host.calls file source response) :
    Delivers file source e (pure (.ok (.edit ⟨source, stamp, response⟩))) := by
  intro edit he
  cases he
  exact h

theorem bind {w : Work α} {f : α → Work (Except Failure Prepared)} (hw : e.Progress (w.run e).2)
    (hf : Delivers file source (w.run e).2 (f (w.run e).1)) : Delivers file source e (w >>= f) := by
  intro edit h
  exact (hf edit h).of_eq hw.files hw.tool

theorem debug_bind {line : String} {f : Unit → Work (Except Failure Prepared)}
    (hf : ∀ mid : Engine, e.Progress mid → Delivers file source mid (f ())) :
    Delivers file source e (Engine.debug line >>= f) :=
  bind (acrossRequests_progress.debug e line) (hf _ (acrossRequests_progress.debug e line))

/-- The rest of the work meets each output together with the call that had it. -/
theorem invoke_bind {c : Invocation} {t : Token} {f : Except Failure ToolOutput → Work (Except Failure Prepared)}
    (hf : ∀ mid : Engine, e.Progress mid → ∀ result : Except Failure ToolOutput,
      (∀ output, result = .ok output → mid.host.Ran mid.host.calls ⟨c, some source⟩ output) →
        Delivers file source mid (f result)) :
    Delivers file source e (Engine.invoke c (some source) t >>= f) := by
  have hmoves := acrossRequests_progress.moves_invoke c (some source) t e
  refine bind hmoves (hf _ hmoves _ ?_)
  intro output hout
  rcases invoke_cases c (some source) t e with ⟨hcancel, -⟩ | ⟨hanswer, hcalls⟩
  · rw [hout] at hcancel
    cases hcancel
  · refine ⟨e.host.calls.size, ?_, ?_⟩
    · rw [hcalls]
      exact Array.getElem?_push_size
    · rw [hmoves.answer, ← hanswer, hout]

end Delivers

theorem requestEdit_delivers (file : String) (source : List UInt8) (stamp : Nat) (t : Token) (e : Engine) :
    Delivers file source e (requestEdit file source stamp t) := by
  unfold requestEdit
  refine Delivers.debug_bind fun e _ => Delivers.bind (acrossRequests_progress.moves_toolPath e) ?_
  generalize (toolPath.run e).2 = e
  split
  · exact Delivers.error _
  rename_i tool _
  refine Delivers.bind (acrossRequests_progress.refl e) ?_
  change Delivers file source e _
  refine Delivers.debug_bind fun started hstarted => Delivers.invoke_bind fun after hafter result hran => ?_
  split
  · exact Delivers.error _
  rename_i run
  split
  · exact Delivers.error _
  rename_i hfailed
  have hsuccess : run.success = true := by simpa using hfailed
  -- The call is known to the engine right after it, and to every engine that comes out of that one.
  have hranAfter : after.host.Ran after.host.calls
      ⟨after.host.placed file (Invocation.format tool file false), some source⟩ run := by
    rw [(hstarted.trans hafter).placed]
    exact hran run rfl
  have hanswered {mid : Engine} (h : after.Progress mid) {response : Response}
      (hdecode : Response.decode run.text = .ok response) :
      mid.host.Answered mid.host.calls file source response := by
    refine ⟨tool, run, ?_, hsuccess, hdecode⟩
    rw [h.placed]
    exact h.ran hranAfter
  refine Delivers.debug_bind fun decoding hdecoding => ?_
  split
  · exact Delivers.error _
  dsimp only
  split
  · exact Delivers.debug_bind fun mid hmid => Delivers.edit stamp (hanswered (hdecoding.trans hmid) ‹_›)
  · exact Delivers.edit stamp (hanswered hdecoding ‹_›)

/-- An edit that was prepared is an answer of the tool for the bytes of the file. -/
theorem prepare_delivers (file : String) (source : List UInt8) (stamp : Nat) (t : Token) (e : Engine) :
    Delivers file source e (prepare file source stamp t) := by
  unfold prepare
  refine Delivers.debug_bind fun e _ => Delivers.bind (acrossRequests_progress.moves_reason? file t e) ?_
  split
  · exact Delivers.error _
  · exact Delivers.debug_bind fun e _ => Delivers.done _
  · exact requestEdit_delivers file source stamp t _

/-! ### Requests and the calls they make -/

def callView (e : Engine) : Option Tool × FileStore × Array Call × List DeskStep :=
  (e.host.tool, e.host.files, e.host.calls, e.agenda)

theorem of_callView {e after : Engine} (h : after.callView = e.callView) : after.host.tool = e.host.tool ∧
    after.host.files = e.host.files ∧ after.host.calls = e.host.calls ∧ after.agenda = e.agenda := by
  simpa only [callView, Prod.mk.injEq] using h

theorem unlogged_callView : Unlogged callView := .of_err (fun _ _ => rfl) (fun _ _ => rfl) (fun _ _ => rfl)

end Engine
end Restyle
