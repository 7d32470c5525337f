import Restyle.Proofs.Format.Reason

/-! # What preparing ends with

Preparing a request ends with what follows from the remembered style, or else from what the tool answers about
it, and from what the tool answers to the text; or it was cancelled.
-/
namespace Restyle
open Work

def Prepared.ofAnswer (command : Invocation) (source : List UInt8) (stamp : Nat) :
    Except Failure ToolOutput → Except Failure Prepared
  | .error f => .error f
  | .ok run =>
    if !run.success then .error (run.classify command.display)
    else ((Response.decode run.text).mapError .decode).map fun response => .edit ⟨source, stamp, response⟩

namespace Engine

def styleNow (e : Engine) (path : String) : Except Failure Style :=
  (e.styles.remembered? path (e.keyNow path)).getD
    (Style.ofKey path (e.keyNow path) (e.host.dump e.host.calls.size path))

def reasonNow (e : Engine) (file : String) : Except Failure (Option Reason) :=
  if e.settings.enabled = false then .ok (some .disabled)
  else if isConfigFile file = true then .ok (some .configurationFile)
  else if (e.styles.chains.configFiles e.host.files file).1.isEmpty = true then .ok (some .notConfigured)
  else Reason.ofStyle file (e.styleNow file)

def editNow (e : Engine) (number : Nat) (file : String) (source : List UInt8) (stamp : Nat) :
    Except Failure Prepared :=
  match e.located with
  | none => .error .toolNotFound
  | some tool => Prepared.ofAnswer (Invocation.format tool file false) source stamp
      (e.host.answer number ⟨e.host.placed file (Invocation.format tool file false), some source⟩)

/-- What preparing a request ends with, if the tool is asked for the edit after so many calls. -/
def preparedNow (e : Engine) (number : Nat) (file : String) (source : List UInt8) (stamp : Nat) :
    Except Failure Prepared :=
  match e.reasonNow file with
  | .error f => .error f
  | .ok (some reason) => .ok (.done (.notApplicable reason))
  | .ok none => e.editNow number file source stamp

/-! ### Styles and reasons -/

theorem of_reasonNow {file : String} {e : Engine} (h : e.reasonNow file = .ok none) :
    e.settings.enabled = true ∧ isConfigFile file = false ∧
      (e.styles.chains.configFiles e.host.files file).1.isEmpty = false ∧
      Reason.ofStyle file (e.styleNow file) = .ok none := by
  unfold reasonNow at h
  split at h
  · cases h
  rename_i henabled
  split at h
  · cases h
  rename_i hplain
  split at h
  · cases h
  rename_i hconfigured
  exact ⟨by simpa using henabled, by simpa using hplain, Bool.eq_false_iff.mpr hconfigured, h⟩

theorem styleFor_eq (path : String) (t : Token) (e : Engine) :
    ((styleFor path t).run e).1 = e.styleNow path ∨
      ((styleFor path t).run e).1 = .error .cancelled ∧ ((styleFor path t).run e).2.desk.isCancelled t = true := by
  have hcases := styleFor_cases path t e
  dsimp only at hcases
  rw [run_dependencyKey] at hcases
  unfold styleNow
  rcases hcases with ⟨hremembered, -, -⟩ | ⟨hnone, -, hcancelled | hanswer⟩
  · rw [hremembered]
    exact Or.inl rfl
  · exact Or.inr hcancelled
  · rw [hnone]
    exact Or.inl hanswer

theorem reason?_eq (file : String) (t : Token) (e : Engine) :
    ((reason? file t).run e).1 = e.reasonNow file ∨
      ((reason? file t).run e).1 = .error .cancelled ∧ ((reason? file t).run e).2.desk.isCancelled t = true := by
  have hchain : ((configFiles file).run e).1 = (e.styles.chains.configFiles e.host.files file).1 := rfl
  rw [run_reason?, reasonNow, hchain]
  split
  · exact Or.inl rfl
  split
  · exact Or.inl rfl
  split
  · exact Or.inl rfl
  · rcases styleFor_eq file t e with hstyle | ⟨hcancelled, hdesk⟩
    · rw [hstyle]
      exact Or.inl rfl
    · rw [hcancelled]
      exact Or.inr ⟨rfl, hdesk⟩

/-! ### Calls -/

theorem calls_invoke (c : Invocation) (input : Option (List UInt8)) (t : Token) (e : Engine) :
    ((invoke c input t).run e).2.host.calls = e.host.calls ∨
      ((invoke c input t).run e).2.host.calls = e.host.calls.push ⟨c, input⟩ := by
  have hcall (e : Engine) : ((call c input t).run e).2.host.calls = e.host.calls ∨
      ((call c input t).run e).2.host.calls = e.host.calls.push ⟨c, input⟩ := by
    unfold call
    rw [Work.run_bind]
    split
    · exact Or.inl rfl
    right
    rw [Work.run_bind, Work.run_bind]
    split
    · rfl
    dsimp only
    split
    · rw [Work.run_bind, Work.run_bind]
      split <;> rfl
    · rfl
  obtain ⟨first, last, hrun⟩ := run_invoke c input t e
  have hcalls := hcall { e with host := e.host.debug first }
  dsimp only at hrun hcalls
  rw [calls_debug] at hcalls
  rw [hrun, calls_debug]
  exact hcalls

/-- No call was made, or one that asks for the style of a file. -/
def Asks (file : String) (e after : Engine) : Prop :=
  after.host.calls = e.host.calls ∨ ∃ tool,
    after.host.calls = e.host.calls.push ⟨e.host.placed file (Invocation.dumpConfig tool file false), none⟩

theorem asks_computeStyle (path : String) (dependencies : DependencyKey) (t : Token) (e : Engine) :
    e.Asks path ((computeStyle path dependencies t).run e).2 := by
  unfold computeStyle
  split
  · exact Or.inl rfl
  cases dependencies.tool with
  | none => exact Or.inl rfl
  | some found =>
    have hasks : e.Asks path
        ((invoke (e.host.placed path (Invocation.dumpConfig found.1 path false)) none t).run e).2 :=
      (calls_invoke _ none t e).imp_right fun h => ⟨found.1, h⟩
    dsimp only
    rw [Work.run_bind, Work.run_bind]
    split
    · exact hasks
    · split <;> exact hasks

theorem asks_styleFor (path : String) (t : Token) (e : Engine) : e.Asks path ((styleFor path t).run e).2 := by
  have hcalls := calls_dependencyKey path e
  have hplaced : ((dependencyKey path).run e).2.host.placed path = e.host.placed path :=
    (acrossRequests_progress.moves_dependencyKey path e).placed
  rw [run_styleFor]
  split
  · exact Or.inl hcalls
  · have hasks := asks_computeStyle path (e.keyNow path) t ((dependencyKey path).run e).2
    unfold Asks at hasks
    rw [hcalls, hplaced] at hasks
    exact hasks

/-- To find out why a file is not formatted takes at most one call, which asks for the style. -/
theorem asks_reason? (file : String) (t : Token) (e : Engine) : e.Asks file ((reason? file t).run e).2 := by
  rw [run_reason?]
  split
  · exact Or.inl rfl
  split
  · exact Or.inl rfl
  split
  · exact Or.inl rfl
  · exact asks_styleFor file t e

theorem Asks.inputs {file : String} {e after : Engine} (h : e.Asks file after) :
    ∃ asked : List Call, after.host.calls.toList = e.host.calls.toList ++ asked ∧ ∀ c ∈ asked, c.input = none := by
  rcases h with h | ⟨tool, h⟩
  · exact ⟨[], by simp [h], by simp⟩
  · exact ⟨[_], by rw [h, Array.toList_push], by simp⟩

/-! ### Preparing -/

/-- An engine without what was logged and shown. -/
def quiet (e : Engine) : Engine :=
  { e with host := { e.host with err := #[] }, notifier := {}, notices := #[] }

theorem unlogged_quiet : Unlogged quiet := .of_err (fun _ _ => rfl) (fun _ _ => rfl) (fun _ _ => rfl)

theorem of_quiet {e mid : Engine} (h : mid.quiet = e.quiet) : mid.located = e.located ∧
    mid.host.answer = e.host.answer ∧ mid.host.placed = e.host.placed ∧ mid.host.calls = e.host.calls ∧
    mid.desk = e.desk := by
  have hlocated := congrArg located h
  have hdesk := congrArg desk h
  exact ⟨hlocated, congrArg (·.host.answer) h, congrArg (·.host.placed) h, congrArg (·.host.calls) h, hdesk⟩

theorem debug_bind_eq {α : Type} (line : String) (f : Unit → Work α) (e : Engine) :
    ∃ mid : Engine, mid.quiet = e.quiet ∧ (debug line >>= f).run e = (f ()).run mid :=
  ⟨{ e with host := e.host.debug line }, unlogged_quiet.debug e line, rfl⟩

def traffic (e : Engine) : Array Call × Desk × List DeskStep := (e.host.calls, e.desk, e.agenda)

theorem unlogged_traffic : Unlogged traffic := .of_err (fun _ _ => rfl) (fun _ _ => rfl) (fun _ _ => rfl)

theorem traffic_of_quiet {e mid : Engine} (h : mid.quiet = e.quiet) : mid.traffic = e.traffic := by
  have htraffic := congrArg traffic h
  exact htraffic

theorem acrossSearches_traffic : AcrossSearches fun e after => after.traffic = e.traffic where
  refl _ := rfl
  trans h h' := h'.trans h
  debug e line := unlogged_traffic.debug e line
  search _ _ := rfl

/-- The tool is searched for without changing what it answers. -/
theorem toolPath_cases (e : Engine) : (toolPath.run e).1 = e.located ∧
    (toolPath.run e).2.host.answer = e.host.answer ∧ (toolPath.run e).2.host.placed = e.host.placed ∧
    (toolPath.run e).2.host.calls = e.host.calls := by
  have hprogress := acrossRequests_progress.moves_toolPath e
  refine ⟨run_toolPath e, hprogress.answer, ?_, acrossSearches_calls.moves_toolPath e⟩
  funext file
  exact hprogress.placed

def readAnswer (file : String) (command : Invocation) (source : List UInt8) (stamp : Nat) :
    Except Failure ToolOutput → Work (Except Failure Prepared)
  | .error f => return .error f
  | .ok run => do
    if !run.success then return .error (run.classify command.display)
    stage .decoding file
    match Response.decode run.text with
    | .error fault => return .error (.decode fault)
    | .ok response =>
      if response.incompleteFormat then
        debug s!"clang-format reported an incomplete format for {file}"
      return .ok (.edit ⟨source, stamp, response⟩)

theorem readAnswer_cases (file : String) (command : Invocation) (source : List UInt8) (stamp : Nat)
    (answer : Except Failure ToolOutput) (e : Engine) :
    let read := (readAnswer file command source stamp answer).run e
    read.1 = Prepared.ofAnswer command source stamp answer ∧ read.2.quiet = e.quiet := by
  cases answer with
  | error f => exact ⟨rfl, rfl⟩
  | ok run =>
    dsimp only [readAnswer, Prepared.ofAnswer]
    split
    · exact ⟨rfl, rfl⟩
    obtain ⟨decoding, hdecoding, hrun⟩ := debug_bind_eq s!"{Stage.decoding.name}: {file}" _ e
    rw [stage, hrun]
    cases Response.decode run.text with
    | error fault => exact ⟨rfl, hdecoding⟩
    | ok response =>
      dsimp only
      split
      · obtain ⟨done, hdone, hrun⟩ :=
          debug_bind_eq s!"clang-format reported an incomplete format for {file}" _ decoding
        rw [hrun]
        exact ⟨rfl, hdone.trans hdecoding⟩
      · exact ⟨rfl, hdecoding⟩

/-- Once the tool is found, a request calls it with the bytes of the file and reads the answer. -/
theorem run_requestEdit {tool : String} {e : Engine} (htool : e.located = some tool) (file : String)
    (source : List UInt8) (stamp : Nat) (t : Token) :
    let command := e.host.placed file (Invocation.format tool file false)
    ∃ invoking : Engine, invoking.traffic = e.traffic ∧ invoking.host.answer = e.host.answer ∧
      (requestEdit file source stamp t).run e =
        (invoke command (some source) t >>= readAnswer file command source stamp).run invoking := by
  intro command
  obtain ⟨started, hstarted, hrun⟩ := debug_bind_eq s!"{Stage.resolving.name}: {file}" _ e
  obtain ⟨hfound, hanswer, hplaced, -⟩ := toolPath_cases started
  obtain ⟨hlocated, hanswer', hplaced', -, -⟩ := of_quiet hstarted
  have htraffic := (acrossSearches_traffic.moves_toolPath started).trans (traffic_of_quiet hstarted)
  unfold requestEdit
  rw [stage, hrun, Work.run_bind, hfound, hlocated, htool]
  generalize (toolPath.run started).2 = mid at *
  have hcommand : (inDirectoryOf file (Invocation.format tool file false)).run mid = (command, mid) := by
    have hsame : mid.host.placed file (Invocation.format tool file false) = command := by rw [hplaced, hplaced']
    rw [← hsame]
    rfl
  obtain ⟨invoking, hinvoking, hrun⟩ := debug_bind_eq s!"{Stage.invoking.name}: {file}" _ mid
  obtain ⟨-, hanswer'', -, -, -⟩ := of_quiet hinvoking
  refine ⟨invoking, (traffic_of_quiet hinvoking).trans htraffic, ?_, ?_⟩
  · rw [hanswer'', hanswer, hanswer']
  · dsimp only
    rw [Work.run_bind, hcommand]
    exact hrun

theorem requestEdit_cases (file : String) (source : List UInt8) (stamp : Nat) (t : Token) (e : Engine) :
    let asked := (requestEdit file source stamp t).run e
    asked.1 = .error .cancelled ∧ asked.2.desk.isCancelled t = true ∨
      asked.1 = e.editNow e.host.calls.size file source stamp ∧ ∀ tool, e.located = some tool →
        asked.2.host.calls =
          e.host.calls.push ⟨e.host.placed file (Invocation.format tool file false), some source⟩ := by
  unfold editNow
  cases hlocated : e.located with
  | none =>
    obtain ⟨started, hstarted, hrun⟩ := debug_bind_eq s!"{Stage.resolving.name}: {file}" _ e
    obtain ⟨hsame, -⟩ := of_quiet hstarted
    obtain ⟨htool, -⟩ := toolPath_cases started
    unfold requestEdit
    rw [stage, hrun, Work.run_bind, htool, hsame, hlocated]
    exact Or.inr ⟨rfl, fun tool h => by cases h⟩
  | some tool =>
    obtain ⟨invoking, htraffic, hanswer, hrun⟩ := run_requestEdit hlocated file source stamp t
    have hcalls : invoking.host.calls = e.host.calls := congrArg Prod.fst htraffic
    dsimp only
    rw [hrun, Work.run_bind]
    have hcases := invoke_cases (e.host.placed file (Invocation.format tool file false)) (some source) t invoking
    rw [hanswer, hcalls] at hcases
    generalize (invoke (e.host.placed file (Invocation.format tool file false)) (some source) t).run invoking =
      answered at hcases ⊢
    obtain ⟨answer, after⟩ := answered
    dsimp only at hcases ⊢
    rcases hcases with ⟨rfl, hdesk⟩ | ⟨rfl, hpushed⟩
    · exact Or.inl ⟨rfl, hdesk⟩
    obtain ⟨hread, hquiet⟩ := readAnswer_cases file (e.host.placed file (Invocation.format tool file false)) source
      stamp (e.host.answer e.host.calls.size
        ⟨e.host.placed file (Invocation.format tool file false), some source⟩) after
    obtain ⟨-, -, -, hcalls, -⟩ := of_quiet hquiet
    refine Or.inr ⟨hread, ?_⟩
    rintro other ⟨⟩
    exact hcalls.trans hpushed

/-- What preparing a request ends with.  If nothing speaks against it, the tool is called with the bytes of the
file at the end, and no other call has an input. -/
theorem prepare_cases (file : String) (source : List UInt8) (stamp : Nat) (t : Token) (e : Engine) :
    let prepared := (prepare file source stamp t).run e
    prepared.1 = .error .cancelled ∧ prepared.2.desk.isCancelled t = true ∨
      (∃ number, prepared.1 = e.preparedNow number file source stamp) ∧
      ∀ tool, e.reasonNow file = .ok none → e.located = some tool →
        ∃ asked : List Call, (∀ c ∈ asked, c.input = none) ∧ prepared.2.host.calls.toList = e.host.calls.toList ++
          asked ++ [⟨e.host.placed file (Invocation.format tool file false), some source⟩] := by
  unfold prepare preparedNow
  dsimp only
  obtain ⟨started, hstarted, hrun⟩ := debug_bind_eq s!"{Stage.styleCheck.name}: {file}" _ e
  rw [stage, hrun, Work.run_bind]
  have hreason := congrArg (reasonNow · file) hstarted
  change started.reasonNow file = e.reasonNow file at hreason
  have hcases := reason?_eq file t started
  have hasks := asks_reason? file t started
  have hprogress := acrossRequests_progress.moves_reason? file t started
  have hbasis := acrossRequests_basis.moves_reason? file t started
  obtain ⟨hlocated, hanswer, hplaced, hcalls, -⟩ := of_quiet hstarted
  rw [hreason] at hcases
  generalize (reason? file t).run started = answered at *
  obtain ⟨reason, mid⟩ := answered
  dsimp only at *
  rcases hcases with rfl | ⟨rfl, hdesk⟩
  swap
  · exact Or.inl ⟨rfl, hdesk⟩
  cases e.reasonNow file with
  | error f =>
    refine Or.inr ⟨⟨0, rfl⟩, ?_⟩
    intro tool h
    cases h
  | ok reason =>
    cases reason with
    | some reason =>
      refine Or.inr ⟨⟨0, rfl⟩, ?_⟩
      intro tool h
      cases h
    | none =>
      dsimp only
      have hmid : mid.located = e.located := (congrArg (·.2.1) hbasis).trans hlocated
      have hedit (number : Nat) : mid.editNow number file source stamp = e.editNow number file source stamp := by
        unfold editNow
        rw [hmid, hprogress.answer, hprogress.placed, hanswer, hplaced]
      have hrequest := requestEdit_cases file source stamp t mid
      dsimp only at hrequest
      rw [hmid, hedit, hprogress.placed, hplaced] at hrequest
      refine hrequest.imp_right ?_
      rintro ⟨hresult, hpushed⟩
      refine ⟨⟨_, hresult⟩, ?_⟩
      intro tool _ htool
      obtain ⟨asked, happend, hinputs⟩ := hasks.inputs
      refine ⟨asked, hinputs, ?_⟩
      rw [hpushed tool htool, Array.toList_push, happend, hcalls]

/-! ### Preparing again -/

/-- If a style is needed to know why a file is not formatted, then it is remembered. -/
def Settled (e : Engine) (file : String) : Prop :=
  e.settings.enabled = true → isConfigFile file = false →
    (e.styles.chains.configFiles e.host.files file).1.isEmpty = false →
      ∃ style, e.styles.remembered? file (e.keyNow file) = some style

theorem Settled.of_quiet {file : String} {e after : Engine} (h : e.Settled file) (hq : after.quiet = e.quiet) :
    after.Settled file := by
  have hquiet : e.quiet.Settled file := h
  rw [← hq] at hquiet
  exact hquiet

/-- What was found out once does not have to be found out again. -/
theorem settled_reason? {file : String} {t : Token} {e : Engine}
    (h : ((reason? file t).run e).1 ≠ .error .cancelled) :
    ((reason? file t).run e).2.Settled file ∧
      ((reason? file t).run e).2.reasonNow file = ((reason? file t).run e).1 := by
  rw [run_reason?] at h ⊢
  split at h
  · rename_i henabled
    rw [if_pos henabled]
    refine ⟨?_, by simp [reasonNow, henabled]⟩
    intro hother
    cases henabled.symm.trans hother
  rename_i henabled
  rw [if_neg henabled]
  split at h
  · rename_i hfile
    rw [if_pos hfile]
    refine ⟨?_, by simp [reasonNow, henabled, hfile]⟩
    intro _ hother
    cases hfile.symm.trans hother
  rename_i hplain
  rw [if_neg hplain]
  have hchain (after : Engine) (hfiles : after.host.files = e.host.files)
      (hchains : after.styles.chains = (e.styles.chains.configFiles e.host.files file).2) :
      (after.styles.chains.configFiles after.host.files file).1 = ((configFiles file).run e).1 := by
    rw [hfiles, hchains, Chains.configFiles_again]
    rfl
  split at h
  · rename_i hnone
    rw [if_pos hnone]
    have hsame := hchain ((configFiles file).run e).2 rfl rfl
    constructor
    · intro _ _ hother
      rw [hsame, hnone] at hother
      cases hother
    · rw [reasonNow, hsame, if_neg hplain, if_pos hnone]
      exact if_neg henabled
  rename_i hsome
  rw [if_neg hsome]
  have hne : ((styleFor file t).run e).1 ≠ .error .cancelled := by
    intro hcancelled
    dsimp only at h
    rw [hcancelled] at h
    exact h rfl
  have hremembered := remembered?_styleFor hne
  rw [← run_dependencyKey_again file t e, run_dependencyKey] at hremembered
  have hprogress := acrossRequests_progress.moves_styleFor file t e
  have hsame := hchain ((styleFor file t).run e).2 hprogress.files (congrArg Prod.fst (chainsView_styleFor file t e))
  refine ⟨fun _ _ _ => ⟨_, hremembered⟩, ?_⟩
  dsimp only
  rw [reasonNow, hsame, if_neg hplain, if_neg hsome, styleNow, hremembered, hprogress.settings]
  exact if_neg henabled

structure Cleared (e : Engine) (file : String) : Prop where
  enabled : e.settings.enabled = true
  plain : isConfigFile file = false
  configured : (e.styles.chains.configFiles e.host.files file).1.isEmpty = false
  remembered : ∃ style, e.styles.remembered? file (e.keyNow file) = some style ∧
    Reason.ofStyle file style = .ok none

variable {file : String} {t : Token} {e mid after : Engine}

theorem Cleared.reasonNow (h : e.Cleared file) : e.reasonNow file = .ok none := by
  obtain ⟨style, hremembered, hstyle⟩ := h.remembered
  rw [Engine.reasonNow, h.enabled, h.plain, h.configured, styleNow, hremembered]
  exact hstyle

theorem Cleared.of_quiet (h : e.Cleared file) (hq : after.quiet = e.quiet) : after.Cleared file := by
  have hquiet : e.quiet.Cleared file := ⟨h.enabled, h.plain, h.configured, h.remembered⟩
  rw [← hq] at hquiet
  exact ⟨hquiet.enabled, hquiet.plain, hquiet.configured, hquiet.remembered⟩

theorem Settled.cleared (h : e.Settled file) (hreason : e.reasonNow file = .ok none) : e.Cleared file := by
  obtain ⟨henabled, hplain, hconfigured, hofStyle⟩ := of_reasonNow hreason
  obtain ⟨style, hremembered⟩ := h henabled hplain hconfigured
  rw [styleNow, hremembered] at hofStyle
  exact ⟨henabled, hplain, hconfigured, style, hremembered, hofStyle⟩

theorem cleared_reason? (h : ((reason? file t).run e).1 = .ok none) : ((reason? file t).run e).2.Cleared file := by
  have hne : ((reason? file t).run e).1 ≠ .error .cancelled := by
    rw [h]
    simp
  obtain ⟨hsettled, hreason⟩ := settled_reason? hne
  exact hsettled.cleared (hreason.trans h)

theorem acrossCalls_cleared (file : String) : AcrossCalls fun e after => e.Cleared file → after.Cleared file where
  refl _ := id
  trans h h' := h' ∘ h
  debug e line h := h.of_quiet (unlogged_quiet.debug e line)
  search e hnone h := by
    have hkey : e.searched.keyNow file = e.keyNow file := by
      unfold keyNow
      rw [located_searched hnone]
      rfl
    refine ⟨h.enabled, h.plain, h.configured, ?_⟩
    rw [hkey]
    exact h.remembered
  call _ _ h := ⟨h.enabled, h.plain, h.configured, h.remembered⟩
  agenda _ _ h := ⟨h.enabled, h.plain, h.configured, h.remembered⟩

theorem cleared_prepare {source : List UInt8} {stamp : Nat} (h : e.reasonNow file = .ok none)
    (hu : ((prepare file source stamp t).run e).2.desk.isCancelled t = false) :
    ((prepare file source stamp t).run e).2.Cleared file := by
  unfold prepare at hu ⊢
  obtain ⟨started, hstarted, hrun⟩ := debug_bind_eq s!"{Stage.styleCheck.name}: {file}" _ e
  have hreason := congrArg (reasonNow · file) hstarted
  change started.reasonNow file = e.reasonNow file at hreason
  rw [stage, hrun, Work.run_bind] at hu ⊢
  have hcleared : ((reason? file t).run started).1 = .ok none →
      ((reason? file t).run started).2.Cleared file := cleared_reason?
  have hcases := reason?_eq file t started
  rw [hreason, h] at hcases
  generalize (reason? file t).run started = answered at *
  obtain ⟨reason, mid⟩ := answered
  dsimp only at *
  rcases hcases with rfl | ⟨rfl, hcancelled⟩
  · exact (acrossCalls_cleared file).moves_requestEdit file source stamp t mid (hcleared rfl)
  · have hu : mid.desk.isCancelled t = false := hu
    rw [hcancelled] at hu
    cases hu

/-! ### Formatting at once -/

theorem formatNow_of_edit {b after : Buffer} {edit : PreparedEdit} {outcome : Outcome} :
    let prepared := (prepare file (Utf8.encode b.text) b.stamp t).run (clearNotice.run e).2
    prepared.1 = .ok (.edit edit) → edit.apply b = (.ok outcome, after) →
      ((formatNow file b t).run e).1 = (.ok outcome, after) ∧
        ((formatNow file b t).run e).2.quiet = prepared.2.quiet := by
  dsimp only
  intro hprepared happly
  unfold formatNow
  rw [Work.run_bind, Work.run_bind, hprepared]
  generalize ((prepare file (Utf8.encode b.text) b.stamp t).run (clearNotice.run e).2).2 = mid
  obtain ⟨lines, hrun⟩ := run_apply file edit b mid
  dsimp only
  rw [Work.run_bind, hrun, happly]
  exact ⟨rfl, unlogged_quiet.debugs lines mid⟩

end Engine
end Restyle
