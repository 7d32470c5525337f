import Restyle.Proofs.Cli.Round
import Restyle.Proofs.Cli.Verdict

/-! # Files come out whole

Whatever the tool answers and in whatever order the files of a request go on, each of them holds what it held
before, or the text that the whole answer of the tool makes of it.  Files that failed, and files that were not
given, stay.
-/
namespace Restyle.Cli
open Restyle.Path Engine Work

variable {before now after : Host} {file name : String} {source : List UInt8} {response : Response}
  {result : FileResult} {e e' : Engine} {ticket : Ticket} {files : List String} {r : Round}

/-! ### Files that change meanwhile -/

/-- The tool answered for the bytes of a file while each file was as it was before or as it is now. -/
def AnsweredMeanwhile (before now : Host) (file : String) (source : List UInt8) (response : Response) : Prop :=
  ∃ met : FileStore, (∀ k, met.find? k = before.files.find? k ∨ met.find? k = now.files.find? k) ∧
    met.get? file = before.files.get? file ∧
    Host.Answered { before with files := met } now.calls file source response

/-- How a request leaves a file that came out in some way.  A file that changed holds the text that the whole
answer of the tool makes of its text. -/
def Leaves (before after : Host) (file : String) : FileResult → Prop
  | .changed name => name = file ∧ ∃ text response b, before.files.read file = .ok text ∧
      AnsweredMeanwhile before after file (Utf8.encode text) response ∧
      applyReplacements (Utf8.encode text) (Buffer.ofText text) response = (b, none) ∧
      (after.files.get? file).map (·.bytes) = some (Utf8.encode b.text)
  | .unchanged | .failed => after.files.get? file = before.files.get? file

/-- A host on which calls were added, and on which no file changed for a second time. -/
structure GoesOn (before now after : Host) : Prop where
  calls : ∀ (number : Nat) (c : Call), now.calls[number]? = some c → after.calls[number]? = some c
  files : ∀ k, after.files.find? k = now.files.find? k ∨ now.files.find? k = before.files.find? k

theorem AnsweredMeanwhile.later (ha : AnsweredMeanwhile before now file source response)
    (hg : GoesOn before now after) : AnsweredMeanwhile before after file source response := by
  obtain ⟨met, hmet, hsame, hanswered⟩ := ha
  refine ⟨met, fun k => ?_, hsame, hanswered.later hg.calls⟩
  rcases hmet k with hk | hk
  · exact Or.inl hk
  · rcases hg.files k with hafter | hbefore
    · exact Or.inr (hk.trans hafter.symm)
    · exact Or.inl (hk.trans hbefore)

theorem Leaves.later (hl : Leaves before now file result) (hg : GoesOn before now after)
    (hsame : after.files.get? file = now.files.get? file) : Leaves before after file result := by
  cases result with
  | changed name =>
    obtain ⟨hname, text, response, b, hread, hanswered, happly, hbytes⟩ := hl
    refine ⟨hname, text, response, b, hread, hanswered.later hg, happly, ?_⟩
    rw [hsame]
    exact hbytes
  | unchanged => exact hsame.trans hl
  | failed => exact hsame.trans hl

/-! ### One file -/

/-- A file that was read and is still as it was before. -/
structure Held (before : Host) (file name : String) (e : Engine) (ticket : Ticket) : Prop where
  same : e.host.files.get? file = before.files.get? file
  document : ticket.document = name
  begun : Begun e file ticket

/-- What stands of a file, however far it has come, in spite of all that is done for others. -/
def Phase.Stands (before : Host) (file name : String) (e : Engine) : Phase → Prop
  | waiting => e.host.files.get? file = before.files.get? file
  | begun ticket | unstyled ticket _ | styled ticket _ _ | judged ticket _ => Held before file name e ticket
  | prepared ticket result => Held before file name e ticket ∧ PreparedFor ticket.source ticket.stamp result ∧
    ∀ edit, result = .ok (.edit edit) → AnsweredMeanwhile before e.host file ticket.source edit.response
  | ended result => Leaves before e.host file result

/-- What a turn of a file does at most: it calls the tool, edits the document of the file, and writes the file if
that was not done before. -/
structure Turned (before : Host) (file name : String) (e e' : Engine) : Prop where
  tool : e'.host.tool = e.host.tool
  agenda : e'.agenda = e.agenda
  documents : ∀ other, other ≠ name → e'.desk.document other = e.desk.document other
  files : ∀ k, k ≠ stored file → e'.host.files.find? k = e.host.files.find? k
  goesOn : GoesOn before e.host e'.host

theorem Held.of_eq (hh : Held before file name e ticket) (hfile : e'.host.files.get? file = e.host.files.get? file)
    (hdocument : e'.desk.document name = e.desk.document name) : Held before file name e' ticket := by
  obtain ⟨hsame, hname, text, hread, hsource, htext⟩ := hh
  refine ⟨hfile.trans hsame, hname, text, ?_, hsource, ?_⟩
  · rw [FileStore.read, hfile]
    exact hread
  · rw [hname] at htext ⊢
    exact hdocument.trans htext

/-- The turn of a file takes nothing from the others. -/
theorem Phase.Stands.spared {p : Phase} {other other' : String} (hp : p.Stands before other other' e)
    (ht : Turned before file name e e') (hname : other' ≠ name) (hstored : stored other ≠ stored file) :
    p.Stands before other other' e' := by
  have hfile : e'.host.files.get? other = e.host.files.get? other := ht.files (stored other) hstored
  have hheld (ticket : Ticket) (hh : Held before other other' e ticket) : Held before other other' e' ticket :=
    hh.of_eq hfile (ht.documents other' hname)
  cases p with
  | waiting => exact hfile.trans hp
  | begun ticket => exact hheld ticket hp
  | unstyled ticket dependencies => exact hheld ticket hp
  | styled ticket dependencies style => exact hheld ticket hp
  | judged ticket reason => exact hheld ticket hp
  | prepared ticket result =>
    obtain ⟨hh, hfor, hanswered⟩ := hp
    exact ⟨hheld ticket hh, hfor, fun edit hedit => (hanswered edit hedit).later ht.goesOn⟩
  | ended result => exact Leaves.later hp ht.goesOn hfile

/-- Work that only calls the tool and finds something out. -/
theorem Turned.of_progress (hp : e.Progress e') (ha : e.agenda = []) : Turned before file name e e' := by
  obtain ⟨hdesk, hagenda⟩ := hp.idle ha
  refine ⟨hp.tool, hagenda.trans ha.symm, ?_, ?_, hp.calls, ?_⟩
  · intro other _
    rw [hdesk]
  · intro k _
    rw [hp.files]
  · intro k
    rw [hp.files]
    exact Or.inl rfl

theorem Held.of_progress (hh : Held before file name e ticket) (hp : e.Progress e') (ha : e.agenda = []) :
    Held before file name e' ticket := by
  refine hh.of_eq ?_ ?_
  · rw [hp.files]
  · rw [(hp.idle ha).1]

/-! ### One turn -/

theorem turned_waiting (hsame : e.host.files.get? file = before.files.get? file) :
    let stepped := (Phase.waiting.next true file name).run e
    Turned before file name e stepped.2 ∧ stepped.1.Stands before file name stepped.2 := by
  obtain ⟨hview, hdocuments, hbegun⟩ := startFile_cases file name e
  have hrun : (Phase.waiting.next true file name).run e =
      (Phase.ofTicket ((startFile file name).run e).1, ((startFile file name).run e).2) := rfl
  dsimp only at *
  rw [hrun]
  generalize (startFile file name).run e = begun at *
  obtain ⟨ticket, e'⟩ := begun
  obtain ⟨htool, hfiles, hcalls, hagenda⟩ := of_callView hview
  dsimp only at *
  have hfile : e'.host.files.get? file = before.files.get? file := by
    rw [hfiles]
    exact hsame
  refine ⟨⟨htool, hagenda, hdocuments, fun k _ => by rw [hfiles], ?_, fun k => Or.inl (by rw [hfiles])⟩, ?_⟩
  · rw [hcalls]
    exact fun _ _ h => h
  · cases ticket with
    | none => exact hfile
    | some ticket =>
      obtain ⟨hname, hticket⟩ := hbegun ticket rfl
      exact ⟨hfile, hname, hticket⟩

/-- The tool is asked for an edit while the file is as before. -/
theorem turned_judged (ha : e.agenda = []) (htool : e.host.tool = before.tool) (hh : Held before file name e ticket)
    (reason : Except Failure (Option Reason)) :
    let stepped := ((Phase.judged ticket reason).next true file name).run e
    Turned before file name e stepped.2 ∧ stepped.1.Stands before file name stepped.2 := by
  have hprogress := acrossRequests_progress.moves_prepareFor file ticket reason e
  have hfor : PreparedFor ticket.source ticket.stamp ((prepareFor file ticket reason).run e).1 := by
    rcases reason with f | reason | reason
    · trivial
    · exact requestEdit_preparedFor file ticket.source ticket.stamp ticket.token e
    · exact ⟨reason, rfl⟩
  have hdelivers : Delivers file ticket.source e (prepareFor file ticket reason) := by
    rcases reason with f | reason | reason
    · exact Delivers.error f
    · exact requestEdit_delivers file ticket.source ticket.stamp ticket.token e
    · exact Delivers.debug_bind fun _ _ => Delivers.done _
  have hrun : ((Phase.judged ticket reason).next true file name).run e =
      (Phase.prepared ticket ((prepareFor file ticket reason).run e).1, ((prepareFor file ticket reason).run e).2) := rfl
  dsimp only
  rw [hrun]
  refine ⟨Turned.of_progress hprogress ha, hh.of_progress hprogress ha, hfor, fun edit hedit => ?_⟩
  let met : Host := { before with files := e.host.files }
  have hmet : e.host.files = met.files := rfl
  have hanswered : met.Answered ((prepareFor file ticket reason).run e).2.host.calls file ticket.source edit.response :=
    (hdelivers edit hedit).of_eq hmet htool
  refine ⟨e.host.files, fun k => Or.inr ?_, hh.same, hanswered⟩
  rw [hprogress.files]

/-- Where an edit was applied as a whole the file is written, and otherwise it stays. -/
theorem turned_prepared {prepared : Except Failure Prepared}
    (hp : (Phase.prepared ticket prepared).Stands before file name e) :
    let stepped := ((Phase.prepared ticket prepared).next true file name).run e
    Turned before file name e stepped.2 ∧ stepped.1.Stands before file name stepped.2 := by
  obtain ⟨⟨hsame, hname, text, hread, hsource, htext⟩, hfor, hanswered⟩ := hp
  have hread : before.files.read file = .ok text := by
    rw [FileStore.read, ← hsame]
    exact hread
  have hrun : ((Phase.prepared ticket prepared).next true file name).run e =
      (Phase.ended ((conclude file ticket prepared >>= close true file ticket).run e).1,
        ((conclude file ticket prepared >>= close true file ticket).run e).2) := rfl
  have hothers (other : String) (hne : other ≠ name) :
      (e.desk.conclude ticket prepared).2.document other = e.desk.document other := by
    rcases e.desk.conclude_cases ticket prepared with ⟨hall, -⟩ | ⟨edit, -, -, -, hall⟩
    · exact hall other
    · rw [hall, if_neg (hname ▸ hne)]
  obtain ⟨hresult, hquiet⟩ := conclude_bind_close_cases true file ticket prepared e
  dsimp only at hresult hquiet ⊢
  rw [hrun]
  generalize (conclude file ticket prepared >>= close true file ticket).run e = closed at hresult hquiet ⊢
  obtain ⟨result, e'⟩ := closed
  rw [Bool.true_and] at hquiet
  have hdesk : e'.desk = (e.desk.conclude ticket prepared).2 := congrArg (·.desk) hquiet
  have hcalls : e'.host.calls = e.host.calls := congrArg (·.host.calls) hquiet
  have hfiles := congrArg (·.host.files) hquiet
  dsimp only [quiet] at hresult hfiles
  have hfind (k : Key) (hk : k ≠ stored file) : e'.host.files.find? k = e.host.files.find? k := by
    rw [hfiles]
    split
    · exact FileStore.find?_write_of_ne hk _ _
    · rfl
  have hturned : Turned before file name e e' := by
    refine ⟨congrArg (·.host.tool) hquiet, congrArg (·.agenda) hquiet, ?_, hfind, ?_, fun k => ?_⟩
    · intro other hne
      rw [hdesk]
      exact hothers other hne
    · rw [hcalls]
      exact fun _ _ h => h
    -- Up to now the file was as before, so this is the first time that it may change.
    · by_cases hk : k = stored file
      · exact Or.inr (hk ▸ hsame)
      · exact Or.inl (hfind k hk)
  refine ⟨hturned, ?_⟩
  cases happlied : isApplied (e.desk.conclude ticket prepared).1 with
  -- What the edit has done to the document so far does not reach the file.
  | false =>
    rw [happlied, if_neg Bool.false_ne_true] at hfiles
    have hstays : e'.host.files.get? file = before.files.get? file := by
      rw [hfiles]
      exact hsame
    rcases ofOutcome_reported file happlied with hunchanged | hfailed
    · rw [hresult, hunchanged]
      exact hstays
    · rw [hresult, hfailed]
      exact hstays
  | true =>
    rw [happlied, if_pos rfl] at hfiles
    obtain ⟨count, hcount⟩ := exists_of_isApplied happlied
    obtain ⟨edit, hedit, -, happly⟩ := conclude_applied hfor hcount
    have hnow := hanswered edit hedit
    rw [htext, hsource] at happly
    rw [hsource] at hnow
    rw [hresult, hcount]
    refine ⟨rfl, text, edit.response, _, hread, hnow.later hturned.goesOn, happly, ?_⟩
    rw [hfiles, FileStore.get?_write]
    rfl

/-- A turn of a file keeps what stands of it. -/
theorem Phase.Stands.next (ha : e.agenda = []) (htool : e.host.tool = before.tool) {p : Phase}
    (hp : p.Stands before file name e) :
    let stepped := (p.next true file name).run e
    Turned before file name e stepped.2 ∧ stepped.1.Stands before file name stepped.2 := by
  cases p with
  | waiting => exact turned_waiting hp
  | begun ticket =>
    have hstaged := acrossRequests_progress.debug e s!"{Stage.styleCheck.name}: {file}"
    have hprogress := acrossRequests_progress.trans hstaged
      (acrossRequests_progress.moves_look file ((stage .styleCheck file).run e).2)
    have hheld := Held.of_progress hp hprogress ha
    refine ⟨Turned.of_progress hprogress ha, ?_⟩
    change (Phase.afterLook ticket ((look file).run ((stage .styleCheck file).run e).2).1).Stands before file name _
    cases ((look file).run ((stage .styleCheck file).run e).2).1 with
    | known reason => exact hheld
    | unknown dependencies => exact hheld
  | unstyled ticket dependencies =>
    have hprogress := acrossRequests_progress.moves_computeStyle file dependencies ticket.token e
    exact ⟨Turned.of_progress hprogress ha, Held.of_progress hp hprogress ha⟩
  | styled ticket dependencies style =>
    have hprogress := acrossRequests_progress.moves_learn file dependencies style e
    exact ⟨Turned.of_progress hprogress ha, Held.of_progress hp hprogress ha⟩
  | judged ticket reason => exact turned_judged ha htool hp reason
  | prepared ticket result => exact turned_prepared hp
  | ended result =>
    refine ⟨⟨rfl, rfl, fun _ _ => rfl, fun _ _ => rfl, fun _ _ h => h, fun _ => Or.inl rfl⟩, hp⟩

/-! ### All files -/

/-- Files that have come some way, each of them whole. -/
structure Round.Whole (before : Host) (files : List String) (r : Round) : Prop where
  serves : r.Serves files
  tool : r.engine.host.tool = before.tool
  agenda : r.engine.agenda = []
  phases : ∀ job ∈ r.jobs, job.phase.Stands before job.file job.name r.engine
  others : ∀ k, k ∉ files.map stored → r.engine.host.files.find? k = before.files.find? k

theorem Round.Whole.tick (hr : r.Whole before files) (hkeys : (files.map stored).Nodup) (i : Nat) :
    (r.tick true i).Whole before files := by
  have hturn (job : Job) (hjob : job ∈ r.jobs) := (hr.phases job hjob).next hr.agenda hr.tool
  refine ⟨hr.serves.tick i, ?_, ?_, ?_, ?_⟩
  · refine Round.engine_tick (P := fun e => e.host.tool = before.tool) hr.tool ?_ i
    exact fun job hjob => (hturn job hjob).1.tool.trans hr.tool
  · refine Round.engine_tick (P := fun e => e.agenda = []) hr.agenda ?_ i
    exact fun job hjob => (hturn job hjob).1.agenda.trans hr.agenda
  · refine Round.forall_tick (P := fun job e => job.phase.Stands before job.file job.name e) hr.serves hkeys
      hr.phases ?_ i
    intro job hjob
    refine ⟨(hturn job hjob).2, fun other hother hname hstored => ?_⟩
    exact (hr.phases other hother).spared (hturn job hjob).1 hname hstored
  · intro k hk
    refine Round.engine_tick (P := fun e => e.host.files.find? k = before.files.find? k) (hr.others k hk) ?_ i
    intro job hjob
    refine ((hturn job hjob).1.files k ?_).trans (hr.others k hk)
    rintro rfl
    exact hk (List.mem_map_of_mem (hr.serves.given ▸ List.mem_map_of_mem hjob))

theorem Round.Whole.run (hr : r.Whole before files) (hkeys : (files.map stored).Nodup) (schedule : List Nat) :
    (r.run true schedule).Whole before files := by
  induction schedule generalizing r with
  | nil => exact hr
  | cons i schedule ih => exact ih (hr.tick hkeys i)

theorem Round.whole_jobsFrom (number : Nat) (hfiles : e.host.files = before.files) (htool : e.host.tool = before.tool)
    (ha : e.agenda = []) : Round.Whole before files ⟨jobsFrom number files, e⟩ := by
  refine ⟨serves_jobsFrom number files e, htool, ha, fun job hjob => ?_, fun k _ => congrArg (FileStore.find? · k) hfiles⟩
  rw [(of_mem_jobsFrom hjob).1]
  exact congrArg (FileStore.get? · job.file) hfiles

/-- How a file has come out so far.  Nothing has changed in it while the work goes on. -/
def Phase.soFar : Phase → FileResult
  | ended result => result
  | _ => .unchanged

def Round.results (r : Round) : List FileResult := r.jobs.map (·.phase.soFar)

theorem Phase.Stands.leaves {p : Phase} (hp : p.Stands before file name e) : Leaves before e.host file p.soFar := by
  cases p with
  | waiting => exact hp
  | begun ticket => exact Held.same hp
  | unstyled ticket dependencies => exact Held.same hp
  | styled ticket dependencies style => exact Held.same hp
  | judged ticket reason => exact Held.same hp
  | prepared ticket result => exact hp.1.same
  | ended result => exact hp

theorem Round.Whole.leaves (hr : r.Whole before files) :
    List.Forall₂ (Leaves before r.engine.host) files r.results := by
  rw [← hr.serves.given, results, List.forall₂_map_left_iff, List.forall₂_map_right_iff, List.forall₂_same]
  exact fun job hjob => (hr.phases job hjob).leaves

/-! ### The request -/

/-- How a request to format files ends once the work on all of them has. -/
def Round.close (r : Round) : Except Fault Unit × Host :=
  let reported := (reportFormatted (.ofResults r.results)).run r.engine
  (reported.1, reported.2.host)

theorem Round.close_eq (r : Round) : ∃ line, r.close =
    (if .failed ∈ r.results then .error (.failedFiles (r.results.countP (· = .failed))) else .ok (),
      r.engine.host.print line) := by
  refine ⟨_, Prod.ext ?_ rfl⟩
  exact check_ofResults r.results

/-- Formatting files is to let them go on in the order of some schedule, up to the end of all of them. -/
theorem exists_close {paths : List String} (hne : paths ≠ [])
    (hfiles : List.Forall₂ (fun path file => e.host.files.canonicalize e.host.directory (e.host.absolute path) = .ok file)
      paths files) :
    ∃ schedule, let r := Round.run true ⟨jobsFrom 0 files, e⟩ schedule
      let formatted := (formatFiles paths).run e
      r.Ended ∧ (formatted.1, formatted.2.host) = r.close := by
  obtain ⟨schedule, hengine, hphases⟩ := exists_schedule true files e
  have hrun := run_runFiles hne hfiles true
  refine ⟨schedule, ?_⟩
  dsimp only at hengine hphases hrun ⊢
  generalize (startAll 0 files >>= finishAll true).run e = finished at *
  obtain ⟨results, after⟩ := finished
  generalize Round.run true ⟨jobsFrom 0 files, e⟩ schedule = r at *
  have hresults : r.results = results := by
    have hsoFar := congrArg (List.map Phase.soFar) hphases
    rw [List.map_map, List.map_map] at hsoFar
    exact hsoFar.trans (List.map_id results)
  constructor
  · intro job hjob
    have hmem : job.phase ∈ results.map .ended := hphases ▸ List.mem_map_of_mem hjob
    obtain ⟨result, -, hresult⟩ := List.mem_map.mp hmem
    exact ⟨result, hresult.symm⟩
  · rw [Round.close, hresults, hengine, formatFiles, Work.run_bind, hrun]

/-- While files that were found are formatted, in whatever order they go on, each of them holds what it held
before, or what the whole answer of the tool makes of its text; files that failed, and files that were not given,
are as before.  With six turns for each file all of them have come to an end, and then the request fails exactly
if a file failed. -/
theorem run_format (h : Host) (request : Args.Request) (settings : Settings) (paths files : List String)
    (haction : request.action = .format paths) (hsettings : (Settings.resolve h request).1 = .ok settings)
    (hne : paths ≠ [])
    (hfiles : List.Forall₂ (fun path file => h.files.canonicalize h.directory (h.absolute path) = .ok file) paths files)
    (hdistinct : files.Nodup) :
    let begun : Round := ⟨jobsFrom 0 files, fresh settings (Settings.resolve h request).2⟩
    (∀ schedule, let r := begun.run true schedule
      List.Forall₂ (Leaves h r.engine.host) files r.results ∧
      (∀ path, (∀ file ∈ files, stored file ≠ stored path) →
        r.engine.host.files.get? path = h.files.get? path) ∧
      ((∀ i, i < files.length → 6 ≤ schedule.count i) → r.Ended) ∧
      (r.Ended → List.Forall₂ (Leaves h r.close.2) files r.results ∧
        (∀ path, (∀ file ∈ files, stored file ≠ stored path) → r.close.2.files.get? path = h.files.get? path) ∧
        r.close.1 =
          if .failed ∈ r.results then .error (.failedFiles (r.results.countP (· = .failed))) else .ok ())) ∧
    ∃ schedule, (begun.run true schedule).Ended ∧ run h request = (begun.run true schedule).close := by
  intro begun
  obtain ⟨err, hhost⟩ := resolve_host h request
  have hkeys := stored_nodup (normal_of_found hfiles) hdistinct
  have hbegun : begun.Whole h files := by
    refine Round.whole_jobsFrom 0 ?_ ?_ rfl
    · exact (congrArg Host.files hhost).trans rfl
    · exact (congrArg Host.tool hhost).trans rfl
  constructor
  · intro schedule r
    have hr : r.Whole h files := hbegun.run hkeys schedule
    have hothers (path : String) (hpath : ∀ file ∈ files, stored file ≠ stored path) :
        r.engine.host.files.get? path = h.files.get? path := by
      refine hr.others (stored path) fun hmem => ?_
      obtain ⟨file, hfile, heq⟩ := List.mem_map.mp hmem
      exact hpath file hfile heq
    refine ⟨hr.leaves, hothers, Round.ended_of_count, fun hended => ?_⟩
    obtain ⟨line, hclose⟩ := r.close_eq
    rw [hclose]
    refine ⟨hr.leaves.imp fun file result hl => ?_, hothers, rfl⟩
    exact hl.later ⟨fun _ _ h => h, fun _ => Or.inl rfl⟩ rfl
  · have hfound : List.Forall₂ (fun path file => begun.engine.host.files.canonicalize begun.engine.host.directory
        (begun.engine.host.absolute path) = .ok file) paths files := by
      have hsame : begun.engine.host = { h with err } := hhost
      rw [hsame]
      exact hfiles
    obtain ⟨schedule, hended, hclose⟩ := exists_close hne hfound
    refine ⟨schedule, hended, ?_⟩
    have hact := run_act hsettings (.format paths) (by rintro text ⟨⟩)
    have hrequest : { request with action := .format paths } = request := by
      rw [← haction]
    rw [hrequest] at hact
    exact hact.trans hclose

/-- With the second file always ahead, the first one is changed, the second one fails and stays, and so does the
configuration, which is not formatted.  Nothing is stored where there was no file. -/
theorem run_format_picky :
    let request : Args.Request := { action := .format ["/a.c", "b.c", "/_clang-format"] }
    let begun : Round :=
      ⟨jobsFrom 0 ["/a.c", "/b.c", "/_clang-format"], fresh {} (Settings.resolve pickyHost request).2⟩
    let r := begun.run true (List.replicate 6 [1, 0, 2]).flatten
    (r.Ended ∧ List.Forall₂ (Leaves pickyHost r.close.2) ["/a.c", "/b.c", "/_clang-format"]
        [.changed "/a.c", .failed, .unchanged] ∧
      r.close.2.files.get? "/c.c" = pickyHost.files.get? "/c.c" ∧ r.close.1 = .error (.failedFiles 1)) ∧
    ∃ schedule, (begun.run true schedule).Ended ∧ run pickyHost request = (begun.run true schedule).close := by
  have hfound : List.Forall₂ (fun path file => pickyHost.files.canonicalize pickyHost.directory
      (pickyHost.absolute path) = .ok file) ["/a.c", "b.c", "/_clang-format"] ["/a.c", "/b.c", "/_clang-format"] :=
    .cons (by decide +kernel) (.cons (by decide +kernel) (.cons (by decide +kernel) .nil))
  have hresults : (Round.run true ⟨jobsFrom 0 ["/a.c", "/b.c", "/_clang-format"], fresh {} (Settings.resolve pickyHost
      { action := .format ["/a.c", "b.c", "/_clang-format"] }).2⟩ (List.replicate 6 [1, 0, 2]).flatten).results =
      [.changed "/a.c", .failed, .unchanged] := by decide +kernel
  obtain ⟨hall, hone⟩ := run_format pickyHost { action := .format ["/a.c", "b.c", "/_clang-format"] } {} _ _ rfl rfl
    (by decide) hfound (by decide)
  have hturns := hall (List.replicate 6 [1, 0, 2]).flatten
  dsimp only at hturns hone ⊢
  refine ⟨?_, hone⟩
  generalize Round.run true ⟨jobsFrom 0 ["/a.c", "/b.c", "/_clang-format"], fresh {} (Settings.resolve pickyHost
    { action := .format ["/a.c", "b.c", "/_clang-format"] }).2⟩ (List.replicate 6 [1, 0, 2]).flatten = r
    at hturns hresults ⊢
  obtain ⟨-, -, hcount, hends⟩ := hturns
  have hended := hcount (by decide)
  obtain ⟨hleaves, hothers, hclose⟩ := hends hended
  rw [hresults] at hleaves hclose
  exact ⟨hended, hleaves, hothers "/c.c" (by decide +kernel), hclose⟩

end Restyle.Cli
