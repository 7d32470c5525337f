import Restyle.Proofs.Cli.Round
import Restyle.Proofs.Cli.Shared

/-! # As if alone

Whatever is done for other files between two phases of a file, it goes on as if it were alone, and ends with
the verdict about it.
-/
namespace Restyle.Cli
open Restyle.Path Engine Work

variable {s : Settings} {h : Host} {files : List String} {file name : String} {e after : Engine} {write : Bool}

/-! ### One phase -/

/-- A file that was read: its document holds the text, and the file stays as it was. -/
structure Taken (h : Host) (file name text : String) (b : Buffer) (content : Option (List UInt8)) (ticket : Ticket) :
    Prop where
  read : h.files.read file = .ok text
  source : ticket.source = Utf8.encode text
  stamp : ticket.stamp = 0
  document : ticket.document = name
  buffer : b = Buffer.ofText text
  content : content = h.files.bytes? file

/-- Whether a file has come as far as a phase says as if it were alone; `b` is its document, and `content` what
the file holds. -/
def Phase.Holds (s : Settings) (h : Host) (write : Bool) (file name : String) (b : Buffer)
    (content : Option (List UInt8)) : Phase → Prop
  | waiting => content = h.files.bytes? file
  | begun ticket => ∃ text, Taken h file name text b content ticket
  | unstyled ticket dependencies => (∃ text, Taken h file name text b content ticket) ∧
    Fits s h file (.unknown dependencies)
  | styled ticket _ style => (∃ text, Taken h file name text b content ticket) ∧
    (fresh s h).reasonNow file = Reason.ofStyle file style ∧ style = (fresh s h).styleNow file
  | judged ticket reason => (∃ text, Taken h file name text b content ticket) ∧ reason = (fresh s h).reasonNow file
  | prepared ticket result => (∃ text, Taken h file name text b content ticket) ∧
    result = (fresh s h).preparedNow 0 file ticket.source ticket.stamp
  | ended result => result = verdict s h file ∧ content = if write then written s h file else h.files.bytes? file

def Phase.At (s : Settings) (h : Host) (write : Bool) (file name : String) (p : Phase) (e : Engine) : Prop :=
  p.Holds s h write file name (e.desk.document name) (e.host.files.bytes? file)

/-- The work on a file spares the documents and the files of others, and every file that is not to be written. -/
structure Spares (write : Bool) (file name : String) (e after : Engine) : Prop where
  documents : ∀ other, other ≠ name → after.desk.document other = e.desk.document other
  files : ∀ k, k ≠ stored file → after.host.files.find? k = e.host.files.find? k
  unwritten : write = false → after.host.files = e.host.files

theorem Spares.of_eq (hdesk : after.desk = e.desk) (hfiles : after.host.files = e.host.files) :
    Spares write file name e after := by
  constructor
  · intro other _
    rw [hdesk]
  · intro k _
    rw [hfiles]
  · exact fun _ => hfiles

theorem Phase.At.spared {p : Phase} {other other' : String} (hp : p.At s h write other other' e)
    (hspares : Spares write file name e after) (hname : other' ≠ name) (hstored : stored other ≠ stored file) :
    p.At s h write other other' after := by
  have hcontent : after.host.files.bytes? other = e.host.files.bytes? other :=
    congrArg (Option.map StoredFile.bytes) (hspares.files (stored other) hstored)
  rw [At, hspares.documents other' hname, hcontent]
  exact hp

structure Turn (s : Settings) (h : Host) (files : List String) (write : Bool) (file name : String) (e after : Engine)
    (p : Phase) : Prop where
  shared : Shared s h files after
  phase : p.At s h write file name after
  spares : Spares write file name e after

/-- Work that changes neither documents nor files is a turn if it finds out what is true. -/
theorem Turn.of_carries {p : Phase} (hs : Shared s h files e) (hc : Carries s h files e after)
    (hp : p.At s h write file name e) : Turn s h files write file name e after p := by
  obtain ⟨hshared, hdesk, hfiles⟩ := hc hs
  refine ⟨hshared, ?_, Spares.of_eq hdesk hfiles⟩
  rw [Phase.At, hdesk, hfiles]
  exact hp

/-! ### The first phase -/

theorem startFile_rest (file name : String) (e : Engine) :
    let begun := (startFile file name).run e
    begun.2.quiet = { e with desk := begun.2.desk }.quiet ∧ begun.2.desk.cancelled = e.desk.cancelled ∧
      (∀ ticket, begun.1 = some ticket → ticket.stamp = 0) ∧
      (begun.1 = none → begun.2.desk = e.desk ∧ ∃ fault, e.host.files.read file = .error fault) := by
  unfold startFile
  rw [Work.run_bind]
  dsimp only
  split
  · rename_i fault hread
    refine ⟨unlogged_quiet.error e _, rfl, ?_, fun _ => ⟨rfl, fault, hread⟩⟩
    intro ticket h
    cases h
  · rename_i text hread
    let ready : Engine := { e with
      desk := ((e.desk.newToken false).2).setDocument name (Buffer.ofText text) }
    have hcleared : (clearNotice.run ready).2.quiet = ready.quiet := unlogged_quiet.keeps_clearNotice ready
    obtain ⟨hticket, hdesk⟩ := start_eq name (e.desk.newToken false).1 ready
    have hquiet : ((start name (e.desk.newToken false).1).run ready).2.quiet =
        { e with desk := ((start name (e.desk.newToken false).1).run ready).2.desk }.quiet := by
      have hwith := congrArg (fun other : Engine =>
        { other with desk := ((start name (e.desk.newToken false).1).run ready).2.desk }) hcleared
      exact hwith
    have hcancelled : ((start name (e.desk.newToken false).1).run ready).2.desk.cancelled = e.desk.cancelled :=
      (congrArg Desk.cancelled hdesk).trans rfl
    refine ⟨hquiet, hcancelled, ?_, ?_⟩
    · intro ticket h
      rw [← Option.some.inj h]
      refine (congrArg Ticket.stamp hticket).trans ?_
      have hshown : ready.desk.document name = Buffer.ofText text :=
        (Desk.document_setDocument _ name _ name).trans (if_pos rfl)
      exact congrArg Buffer.stamp hshown
    · intro h
      cases h

theorem Shared.of_desk (hs : Shared s h files e) {d : Desk} (hd : d.cancelled = e.desk.cancelled)
    (hq : after.quiet = { e with desk := d }.quiet) : Shared s h files after := by
  have hdesk : Shared s h files { e with desk := d } := { hs with cancelled := hd.trans hs.cancelled }
  exact hdesk.of_quiet hq

theorem turn_waiting (hs : Shared s h files e) (hp : Phase.waiting.At s h write file name e) :
    let stepped := (Phase.waiting.next write file name).run e
    Turn s h files write file name e stepped.2 stepped.1 := by
  obtain ⟨hview, hdocuments, hbegun⟩ := startFile_cases file name e
  obtain ⟨hquiet, hcancelled, hstamp, hnone⟩ := startFile_rest file name e
  obtain ⟨-, hfiles, -, -⟩ := of_callView hview
  have hrun : (Phase.waiting.next write file name).run e =
      (Phase.ofTicket ((startFile file name).run e).1, ((startFile file name).run e).2) := rfl
  dsimp only at *
  rw [hrun]
  generalize (startFile file name).run e = begun at *
  obtain ⟨ticket, after⟩ := begun
  dsimp only at *
  have hcontent : after.host.files.bytes? file = h.files.bytes? file := by
    rw [hfiles]
    exact hp
  refine ⟨hs.of_desk hcancelled hquiet, ?_, hdocuments, fun k _ => by rw [hfiles], fun _ => hfiles⟩
  cases ticket with
  | none =>
    obtain ⟨-, fault, hread⟩ := hnone rfl
    rw [FileStore.read_eq hp] at hread
    refine ⟨?_, ?_⟩
    · rw [verdict, hread]
    · rw [hcontent, written, hread]
      exact (ite_self _).symm
  | some ticket =>
    obtain ⟨hname, text, hread, hsource, hbuffer⟩ := hbegun ticket rfl
    rw [FileStore.read_eq hcontent] at hread
    rw [hname] at hbuffer
    exact ⟨text, hread, hsource, hstamp ticket rfl, hname, hbuffer, hcontent⟩

/-! ### The last phase -/

theorem Taken.get?_isSome {text : String} {b : Buffer} {content : Option (List UInt8)} {ticket : Ticket}
    (ht : Taken h file name text b content ticket) : (h.files.get? file).isSome = true := by
  have hread := ht.read
  unfold FileStore.read at hread
  cases hget : h.files.get? file with
  | none =>
    rw [hget] at hread
    cases hread
  | some f => rfl

/-- A file that was read lands in its own document as it would alone. -/
theorem Shared.run_conclude (hs : Shared s h files e) {ticket : Ticket} {text : String}
    (ht : Taken h file name text (e.desk.document name) (e.host.files.bytes? file) ticket) :
    let finished := (conclude file ticket
      ((Cli.fresh s h).preparedNow 0 file ticket.source ticket.stamp)).run e
    finished.1 = reported (landing s h file text).1 ∧ Shared s h files finished.2 ∧
      finished.2.host.files = e.host.files ∧ finished.2.desk.document name = (landing s h file text).2 ∧
      ∀ other, other ≠ name → finished.2.desk.document other = e.desk.document other := by
  generalize hresult : (Cli.fresh s h).preparedNow 0 file ticket.source ticket.stamp = result
  rw [ht.source, ht.stamp] at hresult
  obtain ⟨hconcluded, hown, hothers, hcancelled⟩ := conclude_landed e.desk ticket result (hs.isCancelled _)
  obtain ⟨hfinished, hquiet⟩ := conclude_cases file ticket result e
  have hdesk := congrArg (·.desk) hquiet
  have hfiles := congrArg (·.host.files) hquiet
  dsimp only [quiet] at hdesk hfiles
  have hlanded : Prepared.landed (e.desk.document ticket.document) result = landing s h file text := by
    rw [ht.document, ht.buffer, ← hresult, landing]
  rw [hlanded] at hconcluded hown
  rw [ht.document] at hown hothers
  refine ⟨hfinished.trans (congrArg reported hconcluded), hs.of_desk hcancelled hquiet, hfiles, ?_, ?_⟩
  · rw [hdesk]
    exact hown
  · intro other hne
    rw [hdesk]
    exact hothers other hne

/-- A file that changed is written, if that is wanted, and then holds the text of its document. -/
theorem Shared.run_close (hs : Shared s h files e) (write : Bool) (ha : Apart h files) (hf : file ∈ files)
    {ticket : Ticket} {text : String} {b : Buffer} (ht : Taken h file name text b (e.host.files.bytes? file) ticket)
    (hdocument : e.desk.document name = (landing s h file text).2) :
    let closed := (close write file ticket (reported (landing s h file text).1)).run e
    closed.1 = verdict s h file ∧ Shared s h files closed.2 ∧ Spares write file name e closed.2 ∧
      closed.2.host.files.bytes? file = if write then written s h file else h.files.bytes? file := by
  obtain ⟨hclosed, hquiet⟩ := close_cases write file ticket (reported (landing s h file text).1) e
  rw [ht.document, hdocument, isApplied_reported] at hquiet
  dsimp only at hclosed hquiet ⊢
  generalize (close write file ticket (reported (landing s h file text).1)).run e = closed at *
  obtain ⟨result, after⟩ := closed
  have hverdict := hclosed.trans (verdict_of_read ht.read).symm
  refine ⟨hverdict, ?_⟩
  rw [written_of_read ht.read]
  dsimp only at hquiet ⊢
  -- The store is either left as it is, or this one file is written in it.
  cases hchanged : write && isApplied (landing s h file text).1 with
  | false =>
    rw [hchanged] at hquiet
    have hquiet : after.quiet = e.quiet := hquiet
    have hdesk : after.desk = e.desk := congrArg (·.desk) hquiet
    have hfiles : after.host.files = e.host.files := congrArg (·.host.files) hquiet
    refine ⟨hs.of_quiet hquiet, Spares.of_eq hdesk hfiles, ?_⟩
    rw [hfiles, ht.content]
    cases write with
    | false => rfl
    | true =>
      rw [Bool.true_and] at hchanged
      rw [hchanged]
      rfl
  | true =>
    rw [hchanged, if_pos rfl] at hquiet
    obtain ⟨rfl, happlied⟩ := Bool.and_eq_true_iff.mp hchanged
    have hshared := hs.write ha hf ht.get?_isSome (isConfigFile_of_landing happlied)
      (Utf8.encode (landing s h file text).2.text)
    have hdesk : after.desk = e.desk := congrArg (·.desk) hquiet
    have hfiles : after.host.files = e.host.files.write file (Utf8.encode (landing s h file text).2.text) :=
      congrArg (·.host.files) hquiet
    refine ⟨hshared.of_quiet hquiet, ⟨?_, ?_, fun h => by cases h⟩, ?_⟩
    · intro other _
      rw [hdesk]
    · intro k hk
      rw [hfiles]
      exact FileStore.find?_write_of_ne hk _ _
    · rw [hfiles, happlied, FileStore.bytes?, FileStore.get?_write]
      rfl

theorem turn_prepared (hs : Shared s h files e) (ha : Apart h files) (hf : file ∈ files) {ticket : Ticket}
    {result : Except Failure Prepared} (hp : (Phase.prepared ticket result).At s h write file name e) :
    let stepped := ((Phase.prepared ticket result).next write file name).run e
    Turn s h files write file name e stepped.2 stepped.1 := by
  obtain ⟨⟨text, htaken⟩, rfl⟩ := hp
  obtain ⟨hresult, hmid, hfiles, hown, hothers⟩ := hs.run_conclude htaken
  have hrun : ((Phase.prepared ticket ((fresh s h).preparedNow 0 file ticket.source ticket.stamp)).next
      write file name).run e = (Phase.ended ((conclude file ticket ((fresh s h).preparedNow 0 file
        ticket.source ticket.stamp) >>= close write file ticket).run e).1, ((conclude file ticket
        ((fresh s h).preparedNow 0 file ticket.source ticket.stamp) >>= close write file ticket).run e).2) := rfl
  dsimp only at *
  rw [hrun, Work.run_bind]
  generalize (conclude file ticket
    ((fresh s h).preparedNow 0 file ticket.source ticket.stamp)).run e = finished at *
  obtain ⟨outcome, mid⟩ := finished
  dsimp only at *
  subst hresult
  rw [← hfiles] at htaken
  obtain ⟨hverdict, hshared, hspares, hbytes⟩ := hmid.run_close write ha hf htaken hown
  refine ⟨hshared, ⟨hverdict, hbytes⟩, ?_, ?_, ?_⟩
  · intro other hne
    exact (hspares.documents other hne).trans (hothers other hne)
  · intro k hk
    rw [hspares.files k hk, hfiles]
  · intro hw
    rw [hspares.unwritten hw, hfiles]

/-! ### Any phase -/

/-- At each of its turns a file goes on as if it were alone, and spares the others. -/
theorem Phase.At.next (hs : Shared s h files e) (ha : Apart h files) (hf : file ∈ files) {p : Phase}
    (hp : p.At s h write file name e) :
    let stepped := (p.next write file name).run e
    Turn s h files write file name e stepped.2 stepped.1 := by
  have hacross := acrossCalls_carries s h files
  cases p with
  | waiting => exact turn_waiting hs hp
  | begun ticket =>
    have hstage : Carries s h files e ((stage .styleCheck file).run e).2 := hacross.debug e _
    obtain ⟨hmid, -, -⟩ := hstage hs
    have hfits := hmid.fits_look ha hf
    refine Turn.of_carries hs (hacross.trans hstage (carries_look file _)) ?_
    change (Phase.afterLook ticket ((look file).run ((stage .styleCheck file).run e).2).1).At s h write file name e
    generalize ((look file).run ((stage .styleCheck file).run e).2).1 = finding at hfits
    cases finding with
    | known reason => exact ⟨hp, hfits⟩
    | unknown dependencies => exact ⟨hp, hfits⟩
  | unstyled ticket dependencies =>
    obtain ⟨htaken, htells, hreason⟩ := hp
    refine Turn.of_carries hs (hacross.moves_computeStyle file dependencies ticket.token e) ⟨htaken, ?_, ?_⟩
    · exact hreason.trans (congrArg _ (hs.run_computeStyle ha htells ticket.token).symm)
    · exact hs.run_computeStyle ha htells ticket.token
  | styled ticket dependencies style =>
    obtain ⟨htaken, hreason, rfl⟩ := hp
    exact Turn.of_carries hs (carries_learn hf dependencies e) ⟨htaken, hreason.symm⟩
  | judged ticket reason =>
    obtain ⟨htaken, rfl⟩ := hp
    exact Turn.of_carries hs (carries_prepareFor file ticket _ e) ⟨htaken, hs.run_prepareFor ha ticket⟩
  | prepared ticket result => exact turn_prepared hs ha hf hp
  | ended result => exact ⟨hs, hp, Spares.of_eq rfl rfl⟩

/-! ### All files -/

/-- Files that have come some way, each as if it were alone. -/
structure Round.Steady (s : Settings) (h : Host) (files : List String) (write : Bool) (r : Round) : Prop where
  shared : Shared s h files r.engine
  serves : r.Serves files
  phases : ∀ job ∈ r.jobs, job.phase.At s h write job.file job.name r.engine
  others : ∀ k, k ∉ files.map stored → r.engine.host.files.find? k = h.files.find? k
  unwritten : write = false → r.engine.host.files = h.files

variable {r : Round}

theorem Round.Steady.tick (hr : r.Steady s h files write) (ha : Apart h files) (i : Nat) :
    (r.tick write i).Steady s h files write := by
  have hfile (job : Job) (hjob : job ∈ r.jobs) : job.file ∈ files := hr.serves.given ▸ List.mem_map_of_mem hjob
  have hturn (job : Job) (hjob : job ∈ r.jobs) := (hr.phases job hjob).next hr.shared ha (hfile job hjob)
  refine ⟨Round.engine_tick hr.shared (fun job hjob => (hturn job hjob).shared) i, hr.serves.tick i, ?_, ?_, ?_⟩
  · refine Round.forall_tick hr.serves (stored_nodup ha.normal ha.nodup) hr.phases ?_ i
    intro job hjob
    refine ⟨(hturn job hjob).phase, fun other hother hname hstored => ?_⟩
    exact (hr.phases other hother).spared (hturn job hjob).spares hname hstored
  · intro k hk
    refine Round.engine_tick (P := fun e => e.host.files.find? k = h.files.find? k) (hr.others k hk) ?_ i
    intro job hjob
    refine ((hturn job hjob).spares.files k ?_).trans (hr.others k hk)
    rintro rfl
    exact hk (List.mem_map_of_mem (hfile job hjob))
  · intro hw
    refine Round.engine_tick (P := fun e => e.host.files = h.files) (hr.unwritten hw) ?_ i
    exact fun job hjob => ((hturn job hjob).spares.unwritten hw).trans (hr.unwritten hw)

theorem Round.Steady.run (hr : r.Steady s h files write) (ha : Apart h files) (schedule : List Nat) :
    (r.run write schedule).Steady s h files write := by
  induction schedule generalizing r with
  | nil => exact hr
  | cons i schedule ih => exact ih (hr.tick ha i)

theorem Shared.steady (hs : Shared s h files e) (he : e.host.files = h.files) (write : Bool) :
    Round.Steady s h files write ⟨jobsFrom 0 files, e⟩ := by
  refine ⟨hs, Round.serves_jobsFrom 0 files e, ?_, ?_, fun _ => he⟩
  · intro job hjob
    obtain ⟨hphase, -⟩ := of_mem_jobsFrom hjob
    rw [hphase]
    exact congrArg (FileStore.bytes? · job.file) he
  · intro k _
    rw [he]

/-! ### The end -/

def settled (s : Settings) (h : Host) (files : List String) (write : Bool) (path : String) : Option (List UInt8) :=
  if write = true ∧ normalize path ∈ files then written s h (normalize path) else h.files.bytes? path

theorem Apart.mem_map_stored (ha : Apart h files) {path : String} (hp : stored path ∈ files.map stored) :
    normalize path ∈ files := by
  obtain ⟨file, hf, hstored⟩ := List.mem_map.mp hp
  obtain ⟨seen, rfl⟩ := ha.normal file hf
  have hkey : key (normalize (normalize seen)) = key (normalize (normalize path)) := by
    refine hstored.trans ?_
    rw [stored, key_normalize (normalize path), key_normalize, Key.normal_normal]
  rw [← normalize_eq_of_key_eq hkey]
  exact hf

theorem FileStore.bytes?_normalize (files : FileStore) (path : String) :
    files.bytes? (normalize path) = files.bytes? path := by
  rw [FileStore.bytes?, FileStore.get?, key_normalize, key_normalize, Key.normal_normal, ← key_normalize]
  rfl

/-- Once all files have ended, each came out as its verdict says, and is stored as it says. -/
theorem Round.Steady.ended (hr : r.Steady s h files write) (ha : Apart h files)
    (hended : r.Ended) :
    r.jobs.map (·.phase) = files.map (fun file => .ended (verdict s h file)) ∧
      ∀ path, r.engine.host.files.bytes? path = settled s h files write path := by
  constructor
  · rw [← hr.serves.given, List.map_map]
    refine List.map_congr_left ?_
    intro job hjob
    obtain ⟨result, hresult⟩ := hended job hjob
    have hphase := hr.phases job hjob
    rw [hresult] at hphase ⊢
    exact congrArg Phase.ended hphase.1
  · intro path
    unfold settled
    by_cases hmem : normalize path ∈ files
    · rw [← hr.serves.given] at hmem
      obtain ⟨job, hjob, hfile⟩ := List.mem_map.mp hmem
      obtain ⟨result, hresult⟩ := hended job hjob
      have hphase := hr.phases job hjob
      rw [hresult, hfile] at hphase
      rw [hr.serves.given] at hmem
      rw [← FileStore.bytes?_normalize, hphase.2, FileStore.bytes?_normalize]
      simp only [hmem, and_true]
    · rw [if_neg fun hboth => hmem hboth.2]
      have hother := hr.others (stored path) fun hstored => hmem (ha.mem_map_stored hstored)
      exact congrArg (Option.map StoredFile.bytes) hother

end Restyle.Cli
