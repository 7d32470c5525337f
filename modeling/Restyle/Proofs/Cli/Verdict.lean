import Restyle.Proofs.Cli.Schedule

/-! # Verdicts

How a file comes out, for an engine that works on nothing else.  What a request does once its result is
prepared is the same for every engine that holds the text of the file.
-/
namespace Restyle
open Work

def Prepared.landed (b : Buffer) : Except Failure Prepared → Except Failure Outcome × Buffer
  | .ok (.edit e) => e.apply b
  | .ok (.done outcome) => (.ok outcome, b)
  | .error f => (.error f, b)

def FileStore.bytes? (s : FileStore) (path : String) : Option (List UInt8) := (s.get? path).map (·.bytes)

theorem FileStore.read_eq {s other : FileStore} {path : String} (h : s.bytes? path = other.bytes? path) :
    s.read path = other.read path := by
  unfold bytes? at h
  unfold read
  cases hs : s.get? path with
  | none =>
    rw [hs] at h
    rw [Option.map_eq_none_iff.mp h.symm]
  | some f =>
    rw [hs] at h
    obtain ⟨f', hf', hbytes⟩ := Option.map_eq_some_iff.mp h.symm
    rw [hf']
    dsimp only
    rw [hbytes]

namespace Engine

/-- A prepared result lands in its own document, and no token is cancelled by that. -/
theorem conclude_landed (d : Desk) (ticket : Ticket) (result : Except Failure Prepared)
    (hlive : d.isCancelled ticket.token = false) :
    let landed := Prepared.landed (d.document ticket.document) result
    let concluded := d.conclude ticket result
    concluded.1 = landed.1 ∧ concluded.2.document ticket.document = landed.2 ∧
      (∀ other, other ≠ ticket.document → concluded.2.document other = d.document other) ∧
      concluded.2.cancelled = d.cancelled := by
  rcases result with f | ⟨edit⟩ | outcome
  · exact ⟨rfl, rfl, fun _ _ => rfl, rfl⟩
  · have hland : d.conclude ticket (.ok (.edit edit)) = ((edit.apply (d.document ticket.document)).1,
        (d.setDocument ticket.document (edit.apply (d.document ticket.document)).2).unregister ticket.id) := by
      rw [Desk.conclude, Desk.land, if_neg (Bool.eq_false_iff.mp hlive)]
    dsimp only
    rw [hland]
    refine ⟨rfl, ?_, ?_, rfl⟩
    · rw [Desk.document_unregister, Desk.document_setDocument, if_pos rfl]
      rfl
    · intro other hne
      rw [Desk.document_unregister, Desk.document_setDocument, if_neg hne]
  · exact ⟨rfl, rfl, fun _ _ => rfl, rfl⟩

theorem conclude_cases (file : String) (ticket : Ticket) (result : Except Failure Prepared) (e : Engine) :
    let concluded := e.desk.conclude ticket result
    let finished := (conclude file ticket result).run e
    finished.1 = reported concluded.1 ∧ finished.2.quiet = { e with desk := concluded.2 }.quiet := by
  obtain ⟨lines, hconclude⟩ := run_conclude file ticket result e
  dsimp only at hconclude ⊢
  rw [hconclude]
  refine ⟨report_eq file _ _, ?_⟩
  let landed : Engine := { e with host := lines.foldl Host.debug e.host, desk := (e.desk.land ticket result).2 }
  have hreport : ((report file (e.desk.land ticket result).1).run landed).2.quiet =
      { e with desk := (e.desk.land ticket result).2 }.quiet :=
    (unlogged_quiet.keeps_report file _ landed).trans
      (unlogged_quiet.debugs lines { e with desk := (e.desk.land ticket result).2 })
  exact congrArg (fun other : Engine => { other with desk := other.desk.unregister ticket.id }) hreport

end Engine

namespace Cli
open Engine Restyle.Path

def FileResult.ofOutcome (file : String) : Except Failure Outcome → FileResult
  | .ok (.applied _) => .changed file
  | .ok _ => .unchanged
  | .error _ => .failed

def isApplied : Except Failure Outcome → Bool
  | .ok (.applied _) => true
  | _ => false

theorem isApplied_reported (outcome : Except Failure Outcome) : isApplied (reported outcome) = isApplied outcome := by
  rcases outcome with f | outcome
  · cases f <;> rfl
  · rfl

theorem exists_of_isApplied {outcome : Except Failure Outcome} (h : isApplied outcome = true) :
    ∃ count, outcome = .ok (.applied count) := by
  unfold isApplied at h
  split at h
  · exact ⟨_, rfl⟩
  · cases h

/-- A file is written, if at all, with the text of its document. -/
theorem close_cases (write : Bool) (file : String) (ticket : Ticket) (outcome : Except Failure Outcome)
    (e : Engine) :
    let closed := (close write file ticket outcome).run e
    let bytes := Utf8.encode (e.desk.document ticket.document).text
    closed.1 = .ofOutcome file outcome ∧ closed.2.quiet =
      (if write && isApplied outcome then { e with host := { e.host with files := e.host.files.write file bytes } }
        else e).quiet := by
  rcases outcome with f | outcome
  · cases write <;> exact ⟨rfl, rfl⟩
  cases outcome with
  | applied count =>
    obtain ⟨err, hdebug⟩ := run_debug s!"Applied {count} replacements to {file}" e
    unfold close
    rw [Work.run_bind, hdebug]
    cases write with
    | true => exact ⟨rfl, rfl⟩
    | false => exact ⟨rfl, rfl⟩
  | noChanges =>
    cases write <;> exact ⟨rfl, unlogged_quiet.keeps_debug _ e⟩
  | notApplicable reason =>
    cases write <;> exact ⟨rfl, unlogged_quiet.keeps_debug _ e⟩
  | stale =>
    cases write <;> exact ⟨rfl, unlogged_quiet.keeps_debug _ e⟩
  | cancelled =>
    cases write <;> exact ⟨rfl, unlogged_quiet.keeps_debug _ e⟩

/-- A prepared result is concluded, and its file is written, if it is, with the text of the concluded document. -/
theorem conclude_bind_close_cases (write : Bool) (file : String) (ticket : Ticket) (result : Except Failure Prepared)
    (e : Engine) :
    let concluded := e.desk.conclude ticket result
    let closed := (conclude file ticket result >>= close write file ticket).run e
    let bytes := Utf8.encode (concluded.2.document ticket.document).text
    let files := if write && isApplied concluded.1 then e.host.files.write file bytes else e.host.files
    closed.1 = .ofOutcome file (reported concluded.1) ∧
      closed.2.quiet = { e with host := { e.host with files }, desk := concluded.2 }.quiet := by
  obtain ⟨hconcluded, hquiet⟩ := conclude_cases file ticket result e
  dsimp only at hconcluded hquiet ⊢
  rw [Work.run_bind, hconcluded]
  generalize ((conclude file ticket result).run e).2 = mid at hquiet
  obtain ⟨hclosed, hafter⟩ := close_cases write file ticket (reported (e.desk.conclude ticket result).1) mid
  refine ⟨hclosed, ?_⟩
  rw [isApplied_reported] at hafter
  rw [hafter]
  split
  · exact congrArg (fun other : Engine =>
      let bytes := Utf8.encode (other.desk.document ticket.document).text
      { other with host := { other.host with files := other.host.files.write file bytes } }) hquiet
  · exact hquiet

theorem ofOutcome_reported (file : String) {outcome : Except Failure Outcome} (h : isApplied outcome = false) :
    FileResult.ofOutcome file (reported outcome) = .unchanged ∨ FileResult.ofOutcome file (reported outcome) = .failed := by
  rcases outcome with f | outcome
  · cases f
    all_goals first | exact Or.inl rfl | exact Or.inr rfl
  · cases outcome with
    | applied count => cases h
    | _ => exact Or.inl rfl

/-! ### One file alone -/

def fresh (s : Settings) (h : Host) : Engine := { host := h, settings := s, logsNotices := true }

theorem run_act {s : Settings} {h : Host} {request : Args.Request} (hsettings : (Settings.resolve h request).1 = .ok s) (action : Args.Action)
    (hhelp : ∀ text, action ≠ .help text) :
    let acted := (act action).run (fresh s (Settings.resolve h request).2)
    run h { request with action } = (acted.1, acted.2.host) := by
  have hresolve : Settings.resolve h { request with action } = Settings.resolve h request := rfl
  unfold run
  rw [hresolve]
  generalize Settings.resolve h request = resolved at hsettings
  obtain ⟨found, host⟩ := resolved
  dsimp only at hsettings
  subst hsettings
  cases action with
  | help text => exact absurd rfl (hhelp text)
  | _ => rfl

/-- What a request makes of the text of a file. -/
def landing (s : Settings) (h : Host) (file text : String) : Except Failure Outcome × Buffer :=
  Prepared.landed (Buffer.ofText text) ((fresh s h).preparedNow 0 file (Utf8.encode text) 0)

def verdict (s : Settings) (h : Host) (file : String) : FileResult :=
  match h.files.read file with
  | .error _ => .failed
  | .ok text => .ofOutcome file (reported (landing s h file text).1)

def written (s : Settings) (h : Host) (file : String) : Option (List UInt8) :=
  match h.files.read file with
  | .error _ => h.files.bytes? file
  | .ok text =>
    if isApplied (landing s h file text).1 then some (Utf8.encode (landing s h file text).2.text)
    else h.files.bytes? file

variable {s : Settings} {h : Host} {file text : String}

theorem verdict_of_read (hr : h.files.read file = .ok text) :
    verdict s h file = .ofOutcome file (reported (landing s h file text).1) := by
  rw [verdict, hr]

theorem written_of_read (hr : h.files.read file = .ok text) : written s h file =
    if isApplied (landing s h file text).1 then some (Utf8.encode (landing s h file text).2.text)
    else h.files.bytes? file := by
  rw [written, hr]

/-- A configuration file is never changed. -/
theorem isConfigFile_of_landing (hl : isApplied (landing s h file text).1 = true) : isConfigFile file = false := by
  by_contra hne
  have hconfig : isConfigFile file = true := by simpa using hne
  have hreason : ∃ reason, (fresh s h).reasonNow file = .ok (some reason) := by
    unfold reasonNow
    rw [if_pos hconfig]
    split
    · exact ⟨_, rfl⟩
    · exact ⟨_, rfl⟩
  obtain ⟨reason, hreason⟩ := hreason
  rw [landing, preparedNow, hreason] at hl
  cases hl

end Cli
end Restyle
