import Restyle.Proofs.Format.StandIn
import Restyle.Proofs.Notice.Office
import Restyle.Proofs.Style.HintRuns
import Restyle.Proofs.Tool.Report

/-! # Whether a file may be formatted

The test whether a file may be formatted foresees what a request that follows it does: the style that it found is
remembered, so the request comes to the same judgement without asking the tool again.  This needs a memory in which
every style was got from a tool, as it is in all memories that come about.
-/
namespace Restyle
open Work

def Invocation.IsFormatRun (c : Invocation) : Prop := "--output-replacements-xml" ∈ c.args

theorem Invocation.not_isFormatRun_dumpConfig (h : Host) (tool file : String) :
    ¬(h.placed file (dumpConfig tool file false)).IsFormatRun := by
  have hargs : (h.placed file (dumpConfig tool file false)).args =
      ["--fno-color-diagnostics", "--dump-config", assumeFile file] := rfl
  have hfile := (StandIn.assumeFile_ne file "--output-replacements-xml" (by decide)).symm
  simp [IsFormatRun, hargs, hfile]

/-! ### Memories that come about -/

namespace StyleMemory

/-- The memories that come about.  What was found out about a style may be remembered at any later time, when the
memory has changed. -/
inductive Reachable : StyleMemory → Prop
  | empty : Reachable {}
  | search {m : StyleMemory} (h : Reachable m) (files : FileStore) (path : String) :
      Reachable { m with chains := (m.chains.configFiles files path).2 }
  | events {m : StyleMemory} (h : Reachable m) (batch : List FileEvent) : Reachable (m.afterEvents batch)
  | learn {m : StyleMemory} (h : Reachable m) (path : String) (dependencies : DependencyKey) (t : Token) (e : Engine) :
      Reachable (m.remember path dependencies ((Engine.computeStyle path dependencies t).run e).1)

/-- Styles were got from a tool, and no cancellation is remembered. -/
structure Grounded (m : StyleMemory) : Prop where
  tool : ∀ entry ∈ m.styles.entries, ∀ s, entry.2.2 = .ok s → entry.2.1.tool.isSome = true
  finished : ∀ entry ∈ m.styles.entries, entry.2.2 ≠ .error .cancelled

end StyleMemory

theorem Style.tool_of_ofKey {path : String} {dependencies : DependencyKey} {answer : String → Except Failure ToolOutput}
    {s : Style} (h : ofKey path dependencies answer = .ok s) : dependencies.tool.isSome = true := by
  unfold ofKey at h
  split at h
  · cases h
  cases htool : dependencies.tool with
  | none => simp [htool] at h
  | some found => rfl

theorem StyleMemory.Reachable.grounded {m : StyleMemory} (h : m.Reachable) : m.Grounded := by
  induction h with
  | empty => exact ⟨by simp, by simp⟩
  | search _ _ _ ih => exact ⟨ih.tool, ih.finished⟩
  | events _ _ ih => exact ⟨ih.tool, ih.finished⟩
  | @learn m _ path dependencies t e ih =>
    rcases styles_remember path dependencies ((Engine.computeStyle path dependencies t).run e).1 with
      ⟨-, hsame⟩ | ⟨hne, hinsert⟩
    · exact ⟨hsame m ▸ ih.tool, hsame m ▸ ih.finished⟩
    · constructor
      · rw [hinsert]
        intro entry hentry s hs
        rcases Recent.mem_insert hentry with hentry | rfl
        · exact ih.tool entry hentry s hs
        · rcases Engine.computeStyle_cases path dependencies t e with ⟨hcancelled, -⟩ | hcomputed
          · exact absurd hcancelled hne
          · exact Style.tool_of_ofKey (hcomputed.symm.trans hs)
      · rw [hinsert]
        intro entry hentry
        rcases Recent.mem_insert hentry with hentry | rfl
        · exact ih.finished entry hentry
        · exact hne

namespace Engine

variable {file : String} {t : Token} {e mid : Engine}

theorem reachable_configFiles (h : e.styles.Reachable) (path : String) :
    ((configFiles path).run e).2.styles.Reachable := h.search e.host.files path

theorem reachable_dependencyKey (h : e.styles.Reachable) (path : String) :
    ((dependencyKey path).run e).2.styles.Reachable := by
  rw [styles_dependencyKey]
  exact reachable_configFiles h path

theorem reachable_styleFor (h : e.styles.Reachable) (path : String) (t : Token) :
    ((styleFor path t).run e).2.styles.Reachable := by
  have hkey := reachable_dependencyKey h path
  rw [run_styleFor]
  split
  · exact hkey
  · have hcomputed : ((computeStyle path (e.keyNow path) t).run ((dependencyKey path).run e).2).2.styles =
        ((dependencyKey path).run e).2.styles := acrossCalls_styles.moves_computeStyle path (e.keyNow path) t _
    dsimp only
    rw [hcomputed]
    exact hkey.learn path (e.keyNow path) t _

theorem reachable_reason? (h : e.styles.Reachable) (file : String) (t : Token) :
    ((reason? file t).run e).2.styles.Reachable := by
  rw [run_reason?]
  split
  · exact h
  split
  · exact h
  split
  · exact reachable_configFiles h file
  · exact reachable_styleFor h file t

theorem reachable_handleEvents (h : e.styles.Reachable) (batch : List FileEvent) :
    ((handleEvents batch).run e).2.styles.Reachable := by
  obtain ⟨err, hrun⟩ := run_handleEvents batch e
  rw [hrun]
  exact h.events batch

theorem reachable_hintsFor (h : e.styles.Reachable) (file : String) (t : Token) :
    ((hintsFor file t).run e).2.styles.Reachable := by
  have hmid := reachable_reason? h file t
  apply after_hintsFor (P := fun after => after.styles.Reachable)
  · exact fun _ _ h => h
  · exact hmid
  · exact fun _ => reachable_styleFor hmid file t

theorem reachable_live (h : e.styles.Reachable) (m : Moment) : (e.live m).styles.Reachable := by
  cases m with
  | ask a => exact reachable_hintsFor (e := e.facing a) h a.file a.token
  | turn x =>
    obtain ⟨desk, agenda, happening⟩ := x
    cases happening with
    | change host => exact h
    | events batch => exact reachable_handleEvents (e := { e with desk, agenda }) h batch
    | query q =>
      cases q with
      | configFiles path => exact reachable_configFiles (e := { e with desk, agenda }) h path
      | isConfigured path => exact reachable_configFiles (e := { e with desk, agenda }) h path
      | styleFile path => exact reachable_configFiles (e := { e with desk, agenda }) h path
      | dependencyKey path => exact reachable_dependencyKey (e := { e with desk, agenda }) h path
      | styleFor path token => exact reachable_styleFor (e := { e with desk, agenda }) h path token

/-- Queries, requests for hints, events and changes of the host, in any order, leave a memory that comes about. -/
theorem reachable_lives (h : e.styles.Reachable) (ms : List Moment) : (e.lives ms).styles.Reachable := by
  induction ms generalizing e with
  | nil => exact h
  | cons m ms ih => exact ih (reachable_live h m)

theorem unlogged_styles : Unlogged styles := .of_err (fun _ _ => rfl) (fun _ _ => rfl) (fun _ _ => rfl)

theorem reachable_prepare (h : e.styles.Reachable) (file : String) (source : List UInt8) (stamp : Nat) (t : Token) :
    ((prepare file source stamp t).run e).2.styles.Reachable := by
  have hjudged := reachable_reason? (e := { e with host := e.host.debug s!"{Stage.styleCheck.name}: {file}" }) h file t
  unfold prepare
  rw [Work.run_bind, Work.run_bind]
  change ((reason? file t).run ((stage .styleCheck file).run e).2).2.styles.Reachable at hjudged
  split
  · exact hjudged
  · exact hjudged
  · have hrequest := acrossCalls_styles.moves_requestEdit file source stamp t
      ((reason? file t).run ((stage .styleCheck file).run e).2).2
    rw [hrequest]
    exact hjudged

theorem keeps_formatPrepared {γ : Type} {view : Engine → γ} (h : Unlogged view) (file : String) (b : Buffer)
    (prepared : Except Failure Prepared) : Keeps view (formatPrepared file b prepared) := by
  rcases prepared with f | edit | outcome
  · exact Keeps.bind (h.keeps_report file (.error f)) fun _ => Keeps.pure _
  · refine Keeps.bind (fun e => ?_) fun applied => Keeps.bind (h.keeps_report file applied.1) fun _ => Keeps.pure _
    obtain ⟨lines, happly⟩ := run_apply file edit b e
    rw [happly]
    exact h.debugs lines e
  · exact Keeps.bind (h.keeps_report file (.ok outcome)) fun _ => Keeps.pure _

theorem reachable_formatNow (h : e.styles.Reachable) (file : String) (b : Buffer) (t : Token) :
    ((formatNow file b t).run e).2.styles.Reachable := by
  have hstarted : (clearNotice.run e).2.styles = e.styles := unlogged_styles.keeps_clearNotice e
  have hprepared := reachable_prepare (hstarted ▸ h) file (Utf8.encode b.text) b.stamp t
  rw [run_formatNow, Work.run_bind, keeps_formatPrepared unlogged_styles]
  exact hprepared

/-! ### Judging again -/

theorem traffic_dependencyKey (path : String) (e : Engine) : ((dependencyKey path).run e).2.traffic = e.traffic := by
  unfold dependencyKey
  rw [Work.run_bind, Work.run_bind, Work.run_bind]
  exact acrossSearches_traffic.moves_toolPath _

/-- A judgement that is settled is come to without the tool. -/
theorem Settled.run_reason? (h : e.Settled file) (t : Token) :
    ((reason? file t).run e).1 = e.reasonNow file ∧ ((reason? file t).run e).2.traffic = e.traffic := by
  have hchain : ((configFiles file).run e).1 = (e.styles.chains.configFiles e.host.files file).1 := rfl
  rw [Engine.run_reason?, reasonNow, hchain]
  split
  · exact ⟨rfl, rfl⟩
  rename_i henabled
  split
  · exact ⟨rfl, rfl⟩
  rename_i hplain
  split
  · exact ⟨rfl, rfl⟩
  rename_i hconfigured
  obtain ⟨style, hremembered⟩ :=
    h (by simpa using henabled) (by simpa using hplain) (Bool.eq_false_iff.mpr hconfigured)
  rw [run_styleFor, styleNow, hremembered]
  exact ⟨rfl, traffic_dependencyKey file e⟩

/-! ### Cancellation -/

theorem classify_ne_cancelled (run : ToolOutput) (command : String) : run.classify command ≠ .cancelled := by
  unfold ToolOutput.classify classify
  split
  · simp
  cases hread : validation? run.errorText.toList with
  | none => simp
  | some failure =>
    obtain ⟨description, p, rfl⟩ := exists_validation_of_validation? hread
    simp

/-- Where the tool answers no cancellation and none is remembered, a request finds none. -/
theorem reasonNow_ne_cancelled (hg : e.styles.Grounded) (ht : ∀ number c, e.host.answer number c ≠ .error .cancelled)
    (file : String) : e.reasonNow file ≠ .error .cancelled := by
  have hstyle : e.styleNow file ≠ .error .cancelled := by
    unfold styleNow
    cases hremembered : e.styles.remembered? file (e.keyNow file) with
    | some style =>
      obtain ⟨stored, hmem, -⟩ := StyleMemory.mem_of_remembered? hremembered
      exact hg.finished _ hmem
    | none =>
      rw [Option.getD_none, Style.ofKey]
      split
      · simp
      split
      · simp
      rename_i tool _ _
      have hanswer := ht e.host.calls.size ⟨e.host.placed file (Invocation.dumpConfig tool file false), none⟩
      change e.host.dump e.host.calls.size file tool ≠ _ at hanswer
      cases hdump : e.host.dump e.host.calls.size file tool with
      | error f =>
        rw [hdump] at hanswer
        intro h
        cases h
        exact hanswer rfl
      | ok run =>
        rw [Style.ofAnswer]
        split
        · simpa using classify_ne_cancelled run _
        · cases Style.ofDump run.text <;> simp [Except.mapError]
  unfold reasonNow
  split
  · simp
  split
  · simp
  split
  · simp
  unfold Reason.ofStyle
  split
  · split <;> simp
  · simp
  · simp
  · rename_i f _ _ hf
    intro h
    cases h
    exact hstyle hf

/-- A file is formatted only by a style that was got from a tool. -/
theorem exists_located (hg : e.styles.Grounded) (h : e.reasonNow file = .ok none) : ∃ tool, e.located = some tool := by
  have hkey : (e.keyNow file).tool.isSome = true := by
    obtain ⟨-, -, -, hofStyle⟩ := of_reasonNow h
    obtain ⟨s, hs⟩ := Reason.eq_ok_of_ofStyle hofStyle
    unfold styleNow at hs
    cases hremembered : e.styles.remembered? file (e.keyNow file) with
    | some style =>
      rw [hremembered] at hs
      obtain ⟨stored, hmem, hsame⟩ := StyleMemory.mem_of_remembered? hremembered
      obtain ⟨-, htool, -⟩ := (DependencyKey.same_iff _ _).mp hsame
      have hstored := hg.tool _ hmem s hs
      have hmapped := congrArg Option.isSome htool
      rwa [Option.isSome_map, Option.isSome_map, hstored, eq_comm] at hmapped
    | none =>
      rw [hremembered] at hs
      exact Style.tool_of_ofKey hs
  rw [keyNow, Option.isSome_map] at hkey
  exact Option.isSome_iff_exists.mp hkey

/-! ### The format run -/

theorem calls_invoke_of_live (h : e.desk.isCancelled t = false) (c : Invocation) (input : Option (List UInt8)) :
    ((invoke c input t).run e).2.host.calls = e.host.calls.push ⟨c, input⟩ := by
  have hcall (e : Engine) (h : e.desk.isCancelled t = false) :
      ((call c input t).run e).2.host.calls = e.host.calls.push ⟨c, input⟩ := by
    unfold call
    rw [Work.run_bind]
    split
    · rename_i hcancelled
      cases h.symm.trans hcancelled
    rw [Work.run_bind, Work.run_bind]
    split
    · rfl
    dsimp only
    split
    · rw [Work.run_bind, Work.run_bind]
      split <;> rfl
    · rfl
  obtain ⟨first, last, hrun⟩ := run_invoke c input t e
  have hcalls := hcall { e with host := e.host.debug first } h
  dsimp only at hrun hcalls
  rw [calls_debug] at hcalls
  rw [hrun, calls_debug]
  exact hcalls

/-- A live request that finds the tool calls it with the bytes of the file. -/
theorem calls_requestEdit {tool : String} (hlive : e.desk.isCancelled t = false) (htool : e.located = some tool)
    (file : String) (source : List UInt8) (stamp : Nat) : ((requestEdit file source stamp t).run e).2.host.calls =
      e.host.calls.push ⟨e.host.placed file (Invocation.format tool file false), some source⟩ := by
  obtain ⟨invoking, htraffic, -, hrun⟩ := run_requestEdit htool file source stamp t
  obtain ⟨hcalls, hdesk, -⟩ : _ ∧ _ ∧ _ := by simpa only [traffic, Prod.mk.injEq] using htraffic
  have hinvoked := calls_invoke_of_live (e := invoking) (hdesk ▸ hlive)
    (e.host.placed file (Invocation.format tool file false)) (some source)
  rw [hcalls] at hinvoked
  rw [hrun, Work.run_bind, ← hinvoked]
  obtain ⟨-, hquiet⟩ := readAnswer_cases file (e.host.placed file (Invocation.format tool file false)) source stamp
    _ ((invoke (e.host.placed file (Invocation.format tool file false)) (some source) t).run invoking).2
  obtain ⟨-, -, -, hsame, -⟩ := of_quiet hquiet
  exact hsame

/-! ### The test and the request -/

/-- A request on a file whose judgement is settled goes by that judgement. -/
theorem formatNow_of_settled (h : e.Settled file) (b : Buffer) (t : Token) :
    let formatted := (formatNow file b t).run e
    (∀ tool, e.reasonNow file = .ok none → e.located = some tool → e.desk.isCancelled t = false →
      formatted.2.host.calls = e.host.calls.push
        ⟨e.host.placed file (Invocation.format tool file false), some (Utf8.encode b.text)⟩) ∧
    (∀ reason, e.reasonNow file = .ok (some reason) →
      formatted.1 = (.ok (.notApplicable reason), b) ∧ formatted.2.host.calls = e.host.calls) ∧
    ∀ f, e.reasonNow file = .error f →
      formatted.1 = (reported (.error f), b) ∧ formatted.2.host.calls = e.host.calls := by
  have hcleared : (clearNotice.run e).2.quiet = e.quiet := unlogged_quiet.keeps_clearNotice e
  have hstarted : ((stage .styleCheck file).run (clearNotice.run e).2).2.quiet = e.quiet :=
    (unlogged_quiet.keeps_debug _ _).trans hcleared
  have hsettled := h.of_quiet hstarted
  have hreason : ((stage .styleCheck file).run (clearNotice.run e).2).2.reasonNow file = e.reasonNow file := by
    have hsame := congrArg (reasonNow · file) hstarted
    exact hsame
  obtain ⟨hlocated, -, hplaced, hcalls, hdesk⟩ := of_quiet hstarted
  obtain ⟨hjudged, htraffic⟩ := hsettled.run_reason? t
  have hbasis := acrossRequests_basis.moves_reason? file t ((stage .styleCheck file).run (clearNotice.run e).2).2
  have hprogress := acrossRequests_progress.moves_reason? file t ((stage .styleCheck file).run (clearNotice.run e).2).2
  have hrun : (formatNow file b t).run e = _ := run_formatNow file b t e
  rw [Work.run_bind, prepare, Work.run_bind, Work.run_bind] at hrun
  generalize (stage .styleCheck file).run (clearNotice.run e).2 = started at *
  rw [hreason] at hjudged
  generalize (reason? file t).run started.2 = judged at *
  obtain ⟨reason, mid⟩ := judged
  dsimp only at *
  subst hjudged
  have hsame : mid.host.calls = e.host.calls ∧ mid.desk = e.desk := by
    rw [← hcalls, ← hdesk]
    exact ⟨congrArg (·.1) htraffic, congrArg (·.2.1) htraffic⟩
  have hfinished (prepared : Except Failure Prepared) (after : Engine) :
      ((formatPrepared file b prepared).run after).2.host.calls = after.host.calls :=
    congrArg (·.1) (keeps_formatPrepared unlogged_traffic file b prepared after)
  refine ⟨?_, ?_, ?_⟩
  · intro tool hnone htool hlive
    rw [hnone] at hrun
    have hpushed := calls_requestEdit (e := mid) (t := t) (hsame.2 ▸ hlive)
      ((congrArg (·.2.1) hbasis).trans (hlocated.trans htool)) file (Utf8.encode b.text) b.stamp
    rw [hsame.1, hprogress.placed, hplaced] at hpushed
    rw [hrun, hfinished]
    exact hpushed
  · intro reason hsome
    rw [hsome] at hrun
    rw [hrun, hfinished]
    exact ⟨rfl, (calls_debug mid.host _).trans hsame.1⟩
  · intro f hf
    rw [hf] at hrun
    rw [hrun, hfinished]
    refine ⟨?_, hsame.1⟩
    exact Prod.ext (report_eq file (.error f) mid) rfl

theorem Asks.not_isFormatRun {after : Engine} (h : e.Asks file after) : ∃ asked : List Call,
    after.host.calls.toList = e.host.calls.toList ++ asked ∧ ∀ c ∈ asked, ¬c.invocation.IsFormatRun := by
  rcases h with h | ⟨tool, h⟩
  · exact ⟨[], by simp [h], by simp⟩
  · refine ⟨[_], by rw [h, Array.toList_push], ?_⟩
    simpa using Invocation.not_isFormatRun_dumpConfig e.host tool file

/-- Where it is clear without a style that a file is not formatted, the tool is not asked. -/
theorem calls_reason?_of_plain (h : e.settings.enabled = false ∨ isConfigFile file = true ∨
      ((isConfigured file).run e).1 = false) (t : Token) :
    ((reason? file t).run e).2.host.calls = e.host.calls ∧ ((reason? file t).run e).1 ≠ .ok none := by
  have hconfigured : ((isConfigured file).run e).1 = !((configFiles file).run e).1.isEmpty := rfl
  rw [Engine.run_reason?]
  split
  · exact ⟨rfl, by simp⟩
  rename_i henabled
  split
  · exact ⟨rfl, by simp⟩
  rename_i hplain
  split
  · exact ⟨rfl, by simp⟩
  rename_i hchain
  rcases h with h | h | h
  · exact absurd h henabled
  · exact absurd h hplain
  · rw [hconfigured] at h
    simp [hchain] at h

/-- A judgement that was come to twice, on the way of a request that is not cancelled, is settled. -/
theorem judged_twice (hg : e.styles.Grounded) (htool : ∀ number c, e.host.answer number c ≠ .error .cancelled)
    (hlive : ((reason? file t).run ((reason? file t).run e).2).2.desk.isCancelled t = false) :
    let judged := (reason? file t).run e
    let again := (reason? file t).run judged.2
    judged.1 = e.reasonNow file ∧ again.1 = e.reasonNow file ∧ again.2.Settled file ∧
      again.2.reasonNow file = e.reasonNow file ∧ again.2.traffic = judged.2.traffic ∧
      again.2.located = e.located ∧ again.2.host.placed file = e.host.placed file := by
  intro judged again
  have hprogress : e.Progress judged.2 := acrossRequests_progress.moves_reason? file t e
  have hprogress' : judged.2.Progress again.2 := acrossRequests_progress.moves_reason? file t judged.2
  have hbasis : judged.2.basis = e.basis := acrossRequests_basis.moves_reason? file t e
  have hbasis' : again.2.basis = judged.2.basis := acrossRequests_basis.moves_reason? file t judged.2
  have hjudged : judged.1 = e.reasonNow file := by
    refine (reason?_eq file t e).resolve_right ?_
    rintro ⟨-, hcancelled⟩
    cases (hprogress'.cancelled t hcancelled).symm.trans hlive
  have hne := reasonNow_ne_cancelled hg htool file
  obtain ⟨hsettled, hreason⟩ := settled_reason? (t := t) (hjudged ▸ hne)
  obtain ⟨hagain, htraffic⟩ := hsettled.run_reason? t
  have hagain : again.1 = e.reasonNow file := hagain.trans (hreason.trans hjudged)
  obtain ⟨hsettled', hreason'⟩ := settled_reason? (e := judged.2) (t := t) (hagain ▸ hne)
  exact ⟨hjudged, hagain, hsettled', hreason'.trans hagain, htraffic,
    congrArg (·.2.1) (hbasis'.trans hbasis), (hprogress.trans hprogress').placed⟩

/-- The test whether a file may be formatted foresees a request that is not cancelled meanwhile, whatever came before
and whatever the tool answers.  If it may be formatted, the request calls the tool with its text.  If only its
configuration is broken, the request says where; otherwise it does not apply, or fails for another reason.  Then the
document stays, and the tool is at most asked for the style, which it is not if there is none to ask for. -/
theorem isFormattable_foresees (e : Engine) (file : String) (b : Buffer) (t : Token) (he : e.styles.Reachable)
    (htool : ∀ number c, e.host.answer number c ≠ .error .cancelled)
    (hlive : ((isFormattable file true t).run ((isFormattable file false t).run e).2).2.desk.isCancelled t = false) :
    let first := (isFormattable file false t).run e
    let second := (isFormattable file true t).run first.2
    let formatted := (formatNow file b t).run second.2
    (first.1 = true → second.1 = true ∧ ∃ tool, e.located = some tool ∧ formatted.2.host.calls =
      second.2.host.calls.push ⟨e.host.placed file (Invocation.format tool file false), some (Utf8.encode b.text)⟩) ∧
    (second.1 = true → first.1 = false → ∃ description p, formatted.1.1 = .error (.validation description p)) ∧
    (second.1 = false → (∃ reason, formatted.1.1 = .ok (.notApplicable reason)) ∨
      ∃ f, formatted.1.1 = .error f ∧ f.isValidation = false) ∧
    (first.1 = false → formatted.1.2 = b ∧ ∃ asked, formatted.2.host.calls.toList = e.host.calls.toList ++ asked ∧
      ∀ c ∈ asked, ¬c.invocation.IsFormatRun) ∧
    ((e.settings.enabled = false ∨ isConfigFile file = true ∨ ((isConfigured file).run e).1 = false) →
      second.2.host.calls = e.host.calls ∧ formatted.2.host.calls = e.host.calls) := by
  intro first second formatted
  have hfirst : first = _ := run_isFormattable file false t e
  have hsecond : second = _ := run_isFormattable file true t first.2
  rw [hfirst] at hsecond
  have hlive : ((reason? file t).run ((reason? file t).run e).2).2.desk.isCancelled t = false := by
    rw [run_isFormattable, run_isFormattable] at hlive
    exact hlive
  have hasks := asks_reason? file t e
  obtain ⟨hjudged, hagain, hsettled, hreason, htraffic, hlocated, hplaced⟩ := judged_twice he.grounded htool hlive
  have hformat := formatNow_of_settled hsettled b t
  rw [hreason, hlocated, hplaced] at hformat
  have hformatted : formatted = (formatNow file b t).run second.2 := rfl
  rw [hsecond] at hformatted
  dsimp only at hformatted hformat
  rw [← hformatted] at hformat
  rw [hjudged] at hfirst
  rw [hagain] at hsecond
  rw [hfirst, hsecond]
  have hcalls : ((reason? file t).run ((reason? file t).run e).2).2.host.calls =
      ((reason? file t).run e).2.host.calls := congrArg (·.1) htraffic
  obtain ⟨hrun, hdone, hfailed⟩ := hformat
  -- A judgement against the file ends the request where it is settled, before the tool is called again.
  have hstays (h : e.reasonNow file ≠ .ok none) :
      formatted.1.2 = b ∧ formatted.2.host.calls = ((reason? file t).run e).2.host.calls := by
    rcases hr : e.reasonNow file with f | _ | reason
    · obtain ⟨hresult, hsame⟩ := hfailed f hr
      exact ⟨congrArg (·.2) hresult, hsame.trans hcalls⟩
    · exact absurd hr h
    · obtain ⟨hresult, hsame⟩ := hdone reason hr
      exact ⟨congrArg (·.2) hresult, hsame.trans hcalls⟩
  refine ⟨?_, ?_, ?_, ?_, ?_⟩
  · intro hpermits
    have hnone : e.reasonNow file = .ok none := by
      rcases hr : e.reasonNow file with f | _ | reason <;> simp [hr, permits] at hpermits ⊢
    obtain ⟨tool, hfound⟩ := exists_located he.grounded hnone
    exact ⟨by simp [hnone, permits], tool, hfound, hrun tool hnone hfound hlive⟩
  · intro hpermits hrefuses
    rcases hr : e.reasonNow file with f | _ | reason <;> simp [hr, permits] at hpermits hrefuses
    cases f <;> simp [Failure.isValidation] at hpermits
    rename_i description p
    rw [(hfailed _ hr).1]
    exact ⟨description, p, rfl⟩
  · intro hrefuses
    have hne := reasonNow_ne_cancelled he.grounded htool file
    rcases hr : e.reasonNow file with f | _ | reason <;> simp [hr, permits] at hrefuses hne
    · rw [(hfailed _ hr).1]
      cases f <;> simp [reported, Failure.isValidation] at hrefuses hne ⊢
    · rw [(hdone _ hr).1]
      exact Or.inl ⟨reason, rfl⟩
  · intro hrefuses
    have hnone : e.reasonNow file ≠ .ok none := by
      intro hr
      simp [hr, permits] at hrefuses
    obtain ⟨hbuffer, hsame⟩ := hstays hnone
    obtain ⟨asked, happend, hformats⟩ := hasks.not_isFormatRun
    exact ⟨hbuffer, asked, hsame ▸ happend, hformats⟩
  · intro h
    obtain ⟨hnoCall, hnone⟩ := calls_reason?_of_plain h t
    obtain ⟨-, hsame⟩ := hstays (hjudged ▸ hnone)
    exact ⟨hcalls.trans hnoCall, hsame.trans hnoCall⟩

/-- Where the configuration is fine the file is formatted, by a call with its text that comes after the one for its
style.  Where it is broken only the second test permits the file, and the request then reports what is wrong. -/
theorem isFormattable_foresees_picky :
    let first (h : Host) := (isFormattable "/a.c" false 0).run { host := h }
    let second (h : Host) := (isFormattable "/a.c" true 0).run (first h).2
    let formatted (h : Host) := (formatNow "/a.c" (Buffer.ofText "ab") 0).run (second h).2
    ((first Cli.pickyHost).1 = true ∧ (second Cli.pickyHost).1 = true ∧
      (second Cli.pickyHost).2.host.calls.size = 1 ∧ (formatted Cli.pickyHost).2.host.calls.size = 2) ∧
    (first brittleChanged).1 = false ∧ (second brittleChanged).1 = true ∧
      (∃ description p, (formatted brittleChanged).1.1 = .error (.validation description p)) ∧
      (formatted brittleChanged).1.2 = Buffer.ofText "ab" := by
  intro first second formatted
  constructor
  · have hfirst : (first Cli.pickyHost).1 = true := by decide +kernel
    have hcalls : (second Cli.pickyHost).2.host.calls.size = 1 := by decide +kernel
    have htool : ∀ number c, Cli.pickyHost.answer number c ≠ .error .cancelled := by
      intro number c
      rw [Host.answer]
      dsimp only [Cli.pickyHost, Cli.pickyTool]
      split
      · simp
      · split <;> simp
    obtain ⟨hsecond, tool, -, hpushed⟩ := (isFormattable_foresees { host := Cli.pickyHost } "/a.c" (Buffer.ofText "ab") 0
      .empty htool (by decide +kernel)).1 hfirst
    refine ⟨hfirst, hsecond, hcalls, ?_⟩
    exact (congrArg Array.size hpushed).trans ((Array.size_push _).trans (congrArg (· + 1) hcalls))
  · have hfirst : (first brittleChanged).1 = false := by decide +kernel
    have hsecond : (second brittleChanged).1 = true := by decide +kernel
    have htool : ∀ number c, brittleChanged.answer number c ≠ .error .cancelled := by
      intro number c
      rw [Host.answer]
      dsimp only [brittleChanged, brittleHost, brittleRun]
      split <;> simp
    obtain ⟨-, hbroken, -, hrefused, -⟩ := isFormattable_foresees { host := brittleChanged } "/a.c" (Buffer.ofText "ab") 0
      .empty htool (by decide +kernel)
    exact ⟨hfirst, hsecond, hbroken hsecond hfirst, (hrefused hfirst).1⟩

end Engine
end Restyle
