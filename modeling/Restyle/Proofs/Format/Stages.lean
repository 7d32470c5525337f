import Mathlib.Logic.Function.Iterate
import Restyle.Proofs.Format.Formattable
import Restyle.Proofs.Format.Log

/-! # The order of stages

A request that is made at once is cut into steps, each of which does one thing: it finds something out, calls the
tool, or changes the document.  What a step logs comes before what the next one does, so the log of a request can be
compared with how far it has come, and in the end with its result.
-/
namespace Restyle
open Work

inductive Point where
  | asked
  | checking
  | judged (reason : Except Failure (Option Reason))
  | invoking (command : Invocation)
  | answered (command : Invocation) (answer : Except Failure ToolOutput)
  | prepared (result : Except Failure Prepared)
  | applying (edit : PreparedEdit)
  | applied (count : Nat)
  | concluded (result : Except Failure Outcome)
  | ended (result : Except Failure Outcome)

namespace Point
open Engine

def seek (file : String) : Work Point := do
  stage .resolving file
  match ← toolPath with
  | none => return prepared (.error .toolNotFound)
  | some tool =>
    let command ← inDirectoryOf file (Invocation.format tool file false)
    stage .invoking file
    return invoking command

def approach (file : String) (edit : PreparedEdit) (b : Buffer) : Work Point := do
  if b.stamp ≠ edit.stamp then
    debug s!"Discarding the result for {file} because the document changed."
    return concluded (.ok .stale)
  if edit.response.isEmpty then
    stage .done file
    return concluded (.ok .noChanges)
  stage .locating file
  stage .applying file
  return applying edit

def applyTo (edit : PreparedEdit) (b : Buffer) : Point × Buffer :=
  match applyReplacements edit.source b edit.response with
  | (b, none) => (applied edit.response.size, b)
  | (b, some cause) => (concluded (.error (.decode (.unapplicable cause))), b)

def next (file : String) (t : Token) (b : Buffer) : Point → Work (Point × Buffer)
  | asked => do
    clearNotice
    stage .styleCheck file
    return (checking, b)
  | checking => do return (judged (← reason? file t), b)
  | judged (.error f) => return (prepared (.error f), b)
  | judged (.ok (some reason)) => do
    debug s!"Not formatting {file}: {reason.describe}"
    return (prepared (.ok (.done (.notApplicable reason))), b)
  | judged (.ok none) => do return (← seek file, b)
  | invoking command => do return (answered command (← invoke command (some (Utf8.encode b.text)) t), b)
  | answered command answer => do
    return (prepared (← readAnswer file command (Utf8.encode b.text) b.stamp answer), b)
  | prepared (.error f) => return (concluded (.error f), b)
  | prepared (.ok (.done outcome)) => return (concluded (.ok outcome), b)
  | prepared (.ok (.edit edit)) => do return (← approach file edit b, b)
  | applying edit => return applyTo edit b
  | applied count => do
    stage .done file
    return (concluded (.ok (.applied count)), b)
  | concluded result => do return (ended (← report file result), b)
  | ended result => return (ended result, b)

/-! ### What is left to do -/

def restJudged (file : String) (t : Token) (b : Buffer) :
    Except Failure (Option Reason) → Work (Except Failure Outcome × Buffer)
  | .error f => formatPrepared file b (.error f)
  | .ok (some reason) => do
    debug s!"Not formatting {file}: {reason.describe}"
    formatPrepared file b (.ok (.done (.notApplicable reason)))
  | .ok none => requestEdit file (Utf8.encode b.text) b.stamp t >>= formatPrepared file b

def restAnswered (file : String) (b : Buffer) (command : Invocation) (answer : Except Failure ToolOutput) :
    Work (Except Failure Outcome × Buffer) :=
  readAnswer file command (Utf8.encode b.text) b.stamp answer >>= formatPrepared file b

def restConcluded (file : String) (b : Buffer) (result : Except Failure Outcome) :
    Work (Except Failure Outcome × Buffer) := do return (← report file result, b)

def restApplied (file : String) (b : Buffer) (count : Nat) : Work (Except Failure Outcome × Buffer) := do
  stage .done file
  restConcluded file b (.ok (.applied count))

def restApplying (file : String) (b : Buffer) (edit : PreparedEdit) : Work (Except Failure Outcome × Buffer) :=
  match applyReplacements edit.source b edit.response with
  | (b, none) => restApplied file b edit.response.size
  | (b, some cause) => restConcluded file b (.error (.decode (.unapplicable cause)))

def rest (file : String) (t : Token) (b : Buffer) : Point → Work (Except Failure Outcome × Buffer)
  | asked => formatNow file b t
  | checking => do restJudged file t b (← reason? file t)
  | judged reason => restJudged file t b reason
  | invoking command => do
    restAnswered file b command (← invoke command (some (Utf8.encode b.text)) t)
  | answered command answer => restAnswered file b command answer
  | prepared result => formatPrepared file b result
  | applying edit => restApplying file b edit
  | applied count => restApplied file b count
  | concluded result => restConcluded file b result
  | ended result => return (result, b)

section
variable (file : String) (t : Token) (b : Buffer) (e : Engine)

theorem run_seek : (seek file >>= fun p => p.rest file t b).run e = (restJudged file t b (.ok none)).run e := by
  unfold seek restJudged requestEdit
  simp only [Work.run_bind]
  rcases (toolPath.run ((stage .resolving file).run e).2).1 with _ | tool
  · rfl
  · rfl

theorem run_approach (edit : PreparedEdit) :
    (approach file edit b >>= fun p => p.rest file t b).run e = (formatPrepared file b (.ok (.edit edit))).run e := by
  unfold approach formatPrepared Engine.apply
  by_cases hstamp : b.stamp ≠ edit.stamp
  · simp only [if_pos hstamp]
    rfl
  by_cases hempty : edit.response.isEmpty = true
  · simp only [if_neg hstamp, if_pos hempty]
    rfl
  simp only [if_neg hstamp, if_neg hempty]
  rcases happly : applyReplacements edit.source b edit.response with ⟨after, _ | cause⟩
  · have hrest : rest file t b (applying edit) = restApplied file after edit.response.size := by
      rw [rest, restApplying, happly]
    simp only [Work.run_bind, Work.run_pure, hrest]
    rfl
  · have hrest : rest file t b (applying edit) = restConcluded file after (.error (.decode (.unapplicable cause))) := by
      rw [rest, restApplying, happly]
    simp only [Work.run_bind, Work.run_pure, hrest]
    rfl

theorem rest_applyTo (edit : PreparedEdit) :
    (applyTo edit b).1.rest file t (applyTo edit b).2 = restApplying file b edit := by
  unfold applyTo restApplying
  rcases applyReplacements edit.source b edit.response with ⟨after, _ | cause⟩ <;> rfl

theorem run_asked : (formatNow file b t).run e =
    (stage .styleCheck file >>= fun _ => reason? file t >>= restJudged file t b).run (clearNotice.run e).2 := by
  rw [run_formatNow]
  unfold prepare
  simp only [Work.run_bind]
  generalize (reason? file t).run ((stage .styleCheck file).run (clearNotice.run e).2).2 = judged
  rcases judged with ⟨f | _ | reason, mid⟩ <;> rfl

/-- A step leaves to do what was left to do besides it. -/
theorem rest_next (p : Point) :
    (p.next file t b >>= fun moved => moved.1.rest file t moved.2).run e = (p.rest file t b).run e := by
  cases p with
  | asked => exact (run_asked file t b e).symm
  | checking => rfl
  | judged reason =>
    rcases reason with f | _ | reason
    · rfl
    · exact run_seek file t b e
    · rfl
  | invoking command => rfl
  | answered command answer => rfl
  | prepared result =>
    rcases result with f | edit | outcome
    · rfl
    · exact run_approach file t b e edit
    · rfl
  | applying edit => exact congrArg (StateT.run · e) (rest_applyTo file t b edit)
  | applied count => rfl
  | concluded result => rfl
  | ended result => rfl

end

/-! ### What is logged -/

def early : List Stage := [.styleCheck, .resolving, .invoking, .decoding]

/-- The stages that a request with such a result may have gone through. -/
def Ends : Except Failure Outcome → List Stage → Prop
  | .ok (.applied _), trace => trace = early ++ [.locating, .applying, .done]
  | .ok .noChanges, trace => trace = early ++ [.done]
  | _, trace => trace ≠ [] ∧ trace <+: early ∨ trace = early ++ [.locating, .applying]

/-- The stages that a request may have gone through when it is so far. -/
def Fits : Point → List Stage → Prop
  | asked, trace => trace = []
  | checking, trace | judged _, trace => trace = [.styleCheck]
  | invoking _, trace | answered _ _, trace => trace = [.styleCheck, .resolving, .invoking]
  | prepared (.error _), trace => trace ≠ [] ∧ trace <+: early
  | prepared (.ok (.done outcome)), trace => trace = [.styleCheck] ∧ ∃ reason, outcome = .notApplicable reason
  | prepared (.ok (.edit _)), trace => trace = early
  | applying _, trace | applied _, trace => trace = early ++ [.locating, .applying]
  | concluded result, trace | ended result, trace => Ends result trace

theorem Ends.reported {result : Except Failure Outcome} {trace : List Stage} (h : Ends result trace) :
    Ends (reported result) trace := by
  rcases result with f | outcome
  · cases f <;> exact h
  · exact h

theorem Ends.cases {result : Except Failure Outcome} {trace : List Stage} (h : Ends result trace) :
    trace ≠ [] ∧ trace <+: early ∨ trace = early ++ [.done] ∨ trace = early ++ [.locating, .applying] ∨
      trace = early ++ [.locating, .applying, .done] := by
  unfold Ends at h
  split at h
  · exact Or.inr (Or.inr (Or.inr h))
  · exact Or.inr (Or.inl h)
  · exact h.imp_right fun h => Or.inr (Or.inl h)

theorem Ends.done_mem_iff {result : Except Failure Outcome} {trace : List Stage} (h : Ends result trace) :
    .done ∈ trace ↔ (∃ count, result = .ok (.applied count)) ∨ result = .ok .noChanges := by
  unfold Ends at h
  split at h
  · simp [h]
  · simp [h]
  · rename_i happlied hnoChanges
    -- Neither a part of the early stages nor an edit that failed goes as far as the last stage.
    have hmem : .done ∉ trace := by
      rcases h with ⟨-, hinitial⟩ | rfl
      · exact fun hmem => absurd (hinitial.subset hmem) (by decide)
      · decide
    constructor
    · exact fun hdone => absurd hdone hmem
    · rintro (⟨count, hcount⟩ | hnone)
      · exact absurd hcount (happlied count)
      · exact absurd hnone hnoChanges

theorem Ends.sublist_iff {result : Except Failure Outcome} {trace : List Stage} (h : Ends result trace) :
    [.applying, .done].Sublist trace ↔ ∃ count, result = .ok (.applied count) := by
  constructor
  · intro hsub
    have hdone := h.done_mem_iff.mp (hsub.subset (by simp))
    refine hdone.resolve_right ?_
    rintro rfl
    rw [Ends] at h
    subst h
    exact absurd hsub (by decide)
  · rintro ⟨count, rfl⟩
    rw [Ends] at h
    subst h
    decide

/-- It was found why the file is not formatted, and nothing else is done any more. -/
def Declined (reason : Reason) : Point → Prop
  | judged judgement => judgement = .ok (some reason)
  | prepared result => result = .ok (.done (.notApplicable reason))
  | concluded result | ended result => result = .ok (.notApplicable reason)
  | _ => False

def left : Point → Nat
  | asked => 9
  | checking => 8
  | judged _ => 7
  | invoking _ => 6
  | answered _ _ => 5
  | prepared _ => 4
  | applying _ => 3
  | applied _ => 2
  | concluded _ => 1
  | ended _ => 0

theorem exists_ended_of_left {p : Point} (h : p.left = 0) : ∃ result, p = ended result := by
  cases p with
  | ended result => exact ⟨result, rfl⟩
  | _ => cases h

theorem left_seek (file : String) (e : Engine) : ((seek file).run e).1.left ≤ 6 := by
  unfold seek
  rw [Work.run_bind, Work.run_bind]
  split <;> exact Nat.le_of_ble_eq_true rfl

theorem left_approach (file : String) (edit : PreparedEdit) (b : Buffer) (e : Engine) :
    ((approach file edit b).run e).1.left ≤ 3 := by
  unfold approach
  split
  · exact Nat.le_of_ble_eq_true rfl
  split <;> exact Nat.le_of_ble_eq_true rfl

theorem left_next (file : String) (t : Token) (b : Buffer) (e : Engine) (p : Point) :
    ((p.next file t b).run e).1.1.left ≤ p.left - 1 := by
  cases p with
  | judged reason =>
    rcases reason with f | _ | reason
    · exact Nat.le_of_ble_eq_true rfl
    · exact left_seek file e
    · exact Nat.le_of_ble_eq_true rfl
  | prepared result =>
    rcases result with f | edit | outcome
    · exact Nat.le_of_ble_eq_true rfl
    · exact left_approach file edit b e
    · exact Nat.le_of_ble_eq_true rfl
  | applying edit =>
    change (applyTo edit b).1.left ≤ 2
    unfold applyTo
    split <;> exact Nat.le_of_ble_eq_true rfl
  | _ => exact Nat.le_of_ble_eq_true rfl

theorem logs_declined (file : String) (reason : Reason) :
    Keeps (logged file) (debug s!"Not formatting {file}: {reason.describe}") :=
  logs_debug (Stage.isOther_append _ (Stage.isOther_append _ (Stage.isOther_append _ (by decide))))

variable (file : String) {e : Engine}

theorem seek_cases (hl : e.host.logLevel = .debug) :
    let sought := (seek file).run e
    sought.1 = prepared (.error .toolNotFound) ∧ logged file sought.2 = (.debug, (logged file e).2 ++ [.resolving]) ∨
      ∃ command, sought.1 = invoking command ∧
        logged file sought.2 = (.debug, (logged file e).2 ++ [.resolving, .invoking]) := by
  have hresolving := logged_stage file hl .resolving
  have hfound : logged file (toolPath.run ((stage .resolving file).run e).2).2 = _ := logs_toolPath _
  unfold seek
  rw [Work.run_bind, Work.run_bind]
  generalize toolPath.run ((stage .resolving file).run e).2 = found at hfound ⊢
  obtain ⟨_ | tool, mid⟩ := found
  · exact Or.inl ⟨rfl, hfound.trans hresolving⟩
  · have hmid : logged file mid = (.debug, (logged file e).2 ++ [.resolving]) := hfound.trans hresolving
    have hinvoking := logged_stage file (congrArg Prod.fst hmid) .invoking
    rw [hmid, List.append_assoc] at hinvoking
    exact Or.inr ⟨_, rfl, hinvoking⟩

theorem readAnswer_log (hl : e.host.logLevel = .debug) (command : Invocation) (source : List UInt8) (stamp : Nat)
    (answer : Except Failure ToolOutput) :
    let read := (readAnswer file command source stamp answer).run e
    (∃ f, read.1 = .error f) ∧ (logged file read.2 = (.debug, (logged file e).2) ∨
      logged file read.2 = (.debug, (logged file e).2 ++ [.decoding])) ∨
    ∃ edit, read.1 = .ok (.edit edit) ∧ logged file read.2 = (.debug, (logged file e).2 ++ [.decoding]) := by
  have hstart : logged file e = (.debug, (logged file e).2) := Prod.ext hl rfl
  rcases answer with f | run
  · exact Or.inl ⟨⟨f, rfl⟩, Or.inl hstart⟩
  have hdecoding := logged_stage file hl .decoding
  unfold readAnswer
  dsimp only
  split
  · exact Or.inl ⟨⟨_, rfl⟩, Or.inl hstart⟩
  rw [Work.run_bind]
  split
  · exact Or.inl ⟨⟨_, rfl⟩, Or.inr hdecoding⟩
  · right
    split
    · refine ⟨_, rfl, Eq.trans ?_ hdecoding⟩
      exact logs_debug (Stage.isOther_append _ (by decide)) ((stage .decoding file).run e).2
    · exact ⟨_, rfl, hdecoding⟩

theorem approach_cases (hl : e.host.logLevel = .debug) (edit : PreparedEdit) (b : Buffer) :
    let approached := (approach file edit b).run e
    approached.1 = concluded (.ok .stale) ∧ logged file approached.2 = (.debug, (logged file e).2) ∨
    approached.1 = concluded (.ok .noChanges) ∧ logged file approached.2 = (.debug, (logged file e).2 ++ [.done]) ∨
    approached.1 = applying edit ∧
      logged file approached.2 = (.debug, (logged file e).2 ++ [.locating, .applying]) := by
  have hstart : logged file e = (.debug, (logged file e).2) := Prod.ext hl rfl
  unfold approach
  dsimp only
  split
  · refine Or.inl ⟨rfl, Eq.trans ?_ hstart⟩
    exact logs_debug (Stage.isOther_append _ (Stage.isOther_append _ (by decide))) e
  split
  · exact Or.inr (Or.inl ⟨rfl, logged_stage file hl .done⟩)
  · have hlocating := logged_stage file hl .locating
    have happlying := logged_stage file (congrArg Prod.fst hlocating) .applying
    rw [hlocating, List.append_assoc] at happlying
    exact Or.inr (Or.inr ⟨rfl, happlying⟩)

theorem keeps_seek : Keeps traffic (seek file) := by
  unfold seek
  refine Keeps.bind (unlogged_traffic.keeps_debug _) fun _ => Keeps.bind acrossSearches_traffic.moves_toolPath fun tool => ?_
  split
  · exact Keeps.pure _
  · refine Keeps.bind (fun _ => rfl) fun command => ?_
    exact Keeps.bind (unlogged_traffic.keeps_debug _) fun _ => Keeps.pure _

theorem keeps_approach (edit : PreparedEdit) (b : Buffer) : Keeps traffic (approach file edit b) := by
  unfold approach
  split
  · exact Keeps.bind (unlogged_traffic.keeps_debug _) fun _ => Keeps.pure _
  split
  · exact Keeps.bind (unlogged_traffic.keeps_debug _) fun _ => Keeps.pure _
  · refine Keeps.bind (unlogged_traffic.keeps_debug _) fun _ => ?_
    exact Keeps.bind (unlogged_traffic.keeps_debug _) fun _ => Keeps.pure _

end Point

/-! ### One step -/

/-- A request on its way: how far it has come, its document and the engine. -/
structure Journey where
  point : Point
  document : Buffer
  engine : Engine

namespace Journey
open Engine

def step (file : String) (t : Token) (j : Journey) : Journey :=
  let moved := (j.point.next file t j.document).run j.engine
  ⟨moved.1.1, moved.1.2, moved.2⟩

/-- What a step may do.  A format run starts only where the tool is about to be called, and the document changes only
where it is about to be. -/
structure Stride (file : String) (j after : Journey) : Prop where
  logged : j.engine.host.logLevel = .debug → ∀ trace, j.point.Fits trace → ∃ more,
    logged file after.engine = (.debug, (logged file j.engine).2 ++ more) ∧ after.point.Fits (trace ++ more)
  calls : ∃ asked : List Call, after.engine.host.calls.toList = j.engine.host.calls.toList ++ asked ∧
    ∀ c ∈ asked, c.invocation.IsFormatRun → ∃ command, j.point = .invoking command
  document : after.document ≠ j.document → ∃ edit, j.point = .applying edit

/-- A step that neither calls the tool nor changes the document. -/
theorem Stride.of_traffic {file : String} {p p' : Point} {b : Buffer} {e after : Engine}
    (hlogged : e.host.logLevel = .debug → ∀ trace, p.Fits trace → ∃ more,
      Engine.logged file after = (.debug, (Engine.logged file e).2 ++ more) ∧ p'.Fits (trace ++ more))
    (htraffic : after.traffic = e.traffic) : Stride file ⟨p, b, e⟩ ⟨p', b, after⟩ := by
  have hcalls : after.host.calls = e.host.calls := congrArg Prod.fst htraffic
  exact ⟨hlogged, ⟨[], by simp [hcalls], by simp⟩, fun h => absurd rfl h⟩

theorem logged_of_keeps {file : String} {e after : Engine} (hl : e.host.logLevel = .debug)
    (h : logged file after = logged file e) : logged file after = (.debug, (logged file e).2 ++ []) := by
  rw [List.append_nil, h]
  exact Prod.ext hl rfl

theorem stride_judged (file : String) (t : Token) (b : Buffer) (e : Engine) (reason : Except Failure (Option Reason)) :
    Stride file ⟨.judged reason, b, e⟩ (step file t ⟨.judged reason, b, e⟩) := by
  rcases reason with f | _ | reason
  · change Stride file _ ⟨.prepared (.error f), b, e⟩
    refine .of_traffic ?_ rfl
    rintro hl trace rfl
    exact ⟨[], logged_of_keeps hl rfl, by decide, by decide⟩
  · change Stride file _ ⟨((Point.seek file).run e).1, b, ((Point.seek file).run e).2⟩
    refine .of_traffic ?_ (Point.keeps_seek file e)
    rintro hl trace rfl
    rcases Point.seek_cases file hl with ⟨hpoint, hlogged⟩ | ⟨command, hpoint, hlogged⟩
    · rw [hpoint]
      exact ⟨[.resolving], hlogged, by decide, by decide⟩
    · rw [hpoint]
      exact ⟨[.resolving, .invoking], hlogged, rfl⟩
  · change Stride file _ ⟨.prepared (.ok (.done (.notApplicable reason))), b, _⟩
    refine .of_traffic ?_ (unlogged_traffic.keeps_debug _ e)
    rintro hl trace rfl
    exact ⟨[], logged_of_keeps hl (Point.logs_declined file reason e), rfl, reason, rfl⟩

theorem stride_answered (file : String) (t : Token) (b : Buffer) (e : Engine) (command : Invocation)
    (answer : Except Failure ToolOutput) :
    Stride file ⟨.answered command answer, b, e⟩ (step file t ⟨.answered command answer, b, e⟩) := by
  obtain ⟨-, hquiet⟩ := readAnswer_cases file command (Utf8.encode b.text) b.stamp answer e
  change Stride file _ ⟨.prepared ((readAnswer file command (Utf8.encode b.text) b.stamp answer).run e).1, b,
    ((readAnswer file command (Utf8.encode b.text) b.stamp answer).run e).2⟩
  refine .of_traffic ?_ (traffic_of_quiet hquiet)
  rintro hl trace rfl
  rcases Point.readAnswer_log file hl command (Utf8.encode b.text) b.stamp answer with ⟨⟨f, hf⟩, hlogged | hlogged⟩ | ⟨edit, hedit, hlogged⟩
  · rw [hf]
    exact ⟨[], by rw [hlogged, List.append_nil], by decide, by decide⟩
  · rw [hf]
    exact ⟨[.decoding], hlogged, by decide, by decide⟩
  · rw [hedit]
    exact ⟨[.decoding], hlogged, rfl⟩

theorem stride_prepared (file : String) (t : Token) (b : Buffer) (e : Engine) (result : Except Failure Prepared) :
    Stride file ⟨.prepared result, b, e⟩ (step file t ⟨.prepared result, b, e⟩) := by
  rcases result with f | edit | outcome
  · change Stride file _ ⟨.concluded (.error f), b, e⟩
    refine .of_traffic ?_ rfl
    rintro hl trace ⟨hne, hinitial⟩
    exact ⟨[], logged_of_keeps hl rfl, Or.inl (by simpa using ⟨hne, hinitial⟩)⟩
  · change Stride file _ ⟨((Point.approach file edit b).run e).1, b, ((Point.approach file edit b).run e).2⟩
    refine .of_traffic ?_ (Point.keeps_approach file edit b e)
    rintro hl trace rfl
    rcases Point.approach_cases file hl edit b with
      ⟨hpoint, hlogged⟩ | ⟨hpoint, hlogged⟩ | ⟨hpoint, hlogged⟩
    · rw [hpoint]
      exact ⟨[], by rw [hlogged, List.append_nil], Or.inl (by decide)⟩
    · rw [hpoint]
      exact ⟨[.done], hlogged, rfl⟩
    · rw [hpoint]
      exact ⟨[.locating, .applying], hlogged, rfl⟩
  · change Stride file _ ⟨.concluded (.ok outcome), b, e⟩
    refine .of_traffic ?_ rfl
    rintro hl trace ⟨rfl, reason, rfl⟩
    exact ⟨[], logged_of_keeps hl rfl, Or.inl (by decide)⟩

theorem stride_applying (file : String) (t : Token) (b : Buffer) (e : Engine) (edit : PreparedEdit) :
    Stride file ⟨.applying edit, b, e⟩ (step file t ⟨.applying edit, b, e⟩) := by
  change Stride file _ ⟨(Point.applyTo edit b).1, (Point.applyTo edit b).2, e⟩
  refine ⟨?_, ⟨[], by simp, by simp⟩, fun _ => ⟨edit, rfl⟩⟩
  rintro hl trace rfl
  refine ⟨[], logged_of_keeps hl rfl, ?_⟩
  unfold Point.applyTo
  rcases applyReplacements edit.source b edit.response with ⟨after, _ | cause⟩
  · rfl
  · exact Or.inr rfl

theorem stride_step (file : String) (t : Token) (j : Journey) : Stride file j (j.step file t) := by
  obtain ⟨p, b, e⟩ := j
  cases p with
  | asked =>
    refine .of_traffic ?_ ((unlogged_traffic.keeps_debug _ _).trans (unlogged_traffic.keeps_clearNotice e))
    rintro hl trace rfl
    have hcleared : Engine.logged file (clearNotice.run e).2 = Engine.logged file e := logs_clearNotice e
    have hstage := logged_stage file ((congrArg Prod.fst hcleared).trans hl) .styleCheck
    rw [hcleared] at hstage
    exact ⟨[.styleCheck], hstage, rfl⟩
  | checking =>
    refine ⟨?_, ?_, fun h => absurd rfl h⟩
    · rintro hl trace rfl
      exact ⟨[], logged_of_keeps hl (logs_reason? file t e), rfl⟩
    · obtain ⟨asked, happend, hformats⟩ := (asks_reason? file t e).not_isFormatRun
      exact ⟨asked, happend, fun c hc hformat => absurd hformat (hformats c hc)⟩
  | judged reason => exact stride_judged file t b e reason
  | invoking command =>
    refine ⟨?_, ?_, fun h => absurd rfl h⟩
    · rintro hl trace rfl
      exact ⟨[], logged_of_keeps hl (logs_invoke command _ t e), rfl⟩
    · rcases calls_invoke command (some (Utf8.encode b.text)) t e with hcalls | hcalls
      · exact ⟨[], (congrArg Array.toList hcalls).trans (List.append_nil _).symm, by simp⟩
      · exact ⟨[_], (congrArg Array.toList hcalls).trans Array.toList_push, fun c _ _ => ⟨command, rfl⟩⟩
  | answered command answer => exact stride_answered file t b e command answer
  | prepared result => exact stride_prepared file t b e result
  | applying edit => exact stride_applying file t b e edit
  | applied count =>
    refine .of_traffic ?_ (unlogged_traffic.keeps_debug _ e)
    rintro hl trace rfl
    exact ⟨[.done], logged_stage file hl .done, rfl⟩
  | concluded result =>
    refine .of_traffic ?_ (unlogged_traffic.keeps_report file result e)
    intro hl trace ht
    refine ⟨[], logged_of_keeps hl (logs_report file result e), ?_⟩
    change Point.Ends ((report file result).run e).1 (trace ++ [])
    rw [report_eq, List.append_nil]
    exact ht.reported
  | ended result =>
    refine .of_traffic ?_ rfl
    intro hl trace ht
    refine ⟨[], logged_of_keeps hl rfl, ?_⟩
    rw [List.append_nil]
    exact ht

theorem declined_step (file : String) (t : Token) {reason : Reason} {j : Journey} (h : j.point.Declined reason) :
    (j.step file t).point.Declined reason ∧
      Engine.logged file (j.step file t).engine = Engine.logged file j.engine := by
  obtain ⟨p, b, e⟩ := j
  cases p with
  | judged judgement =>
    cases h
    exact ⟨rfl, Point.logs_declined file reason e⟩
  | prepared result =>
    cases h
    exact ⟨rfl, rfl⟩
  | concluded result =>
    cases h
    exact ⟨rfl, rfl⟩
  | ended result => exact ⟨h, rfl⟩
  | _ => exact h.elim

/-! ### The whole way -/

def after (file : String) (t : Token) (b : Buffer) (e : Engine) (n : Nat) : Journey := (step file t)^[n] ⟨.asked, b, e⟩

section
variable (file : String) (t : Token) (b : Buffer) (e : Engine)

theorem after_succ (n : Nat) : after file t b e (n + 1) = (after file t b e n).step file t :=
  Function.iterate_succ_apply' _ _ _

theorem stride_after (n : Nat) : Stride file (after file t b e n) (after file t b e (n + 1)) := by
  rw [after_succ]
  exact stride_step file t _

/-- What is left to do of a request after some steps makes it the whole request. -/
theorem rest_after (n : Nat) : let j := after file t b e n
    (j.point.rest file t j.document).run j.engine = (formatNow file b t).run e := by
  induction n with
  | zero => rfl
  | succ n ih =>
    rw [after_succ]
    exact (Point.rest_next file t _ _ _).trans ih

theorem left_after (n : Nat) : (after file t b e n).point.left ≤ 9 - n := by
  induction n with
  | zero => exact Nat.le_refl 9
  | succ n ih =>
    rw [after_succ]
    have hnext := Point.left_next file t (after file t b e n).document (after file t b e n).engine
      (after file t b e n).point
    change (step file t (after file t b e n)).point.left ≤ _ at hnext
    omega

/-- A request ends after nine steps at most. -/
theorem after_nine : let formatted := (formatNow file b t).run e
    after file t b e 9 = ⟨.ended formatted.1.1, formatted.1.2, formatted.2⟩ := by
  intro formatted
  have hrest := rest_after file t b e 9
  obtain ⟨result, hresult⟩ := Point.exists_ended_of_left (Nat.le_zero.mp (left_after file t b e 9))
  generalize after file t b e 9 = j at hrest hresult ⊢
  obtain ⟨p, document, engine⟩ := j
  dsimp only at hresult hrest
  subst hresult
  have hformatted : formatted = ((result, document), engine) := hrest.symm
  rw [hformatted]

/-- At every step, the stages that were logged fit how far the request has come. -/
theorem fits_after (hl : e.host.logLevel = .debug) (n : Nat) : ∃ trace,
    logged file (after file t b e n).engine = (.debug, (logged file e).2 ++ trace) ∧
      (after file t b e n).point.Fits trace := by
  induction n with
  | zero => exact ⟨[], logged_of_keeps hl rfl, rfl⟩
  | succ n ih =>
    obtain ⟨trace, hlogged, hfits⟩ := ih
    obtain ⟨more, hmore, hnext⟩ := (stride_after file t b e n).logged (congrArg Prod.fst hlogged) trace hfits
    rw [hlogged, List.append_assoc] at hmore
    exact ⟨trace ++ more, hmore, hnext⟩

theorem declined_after {reason : Reason} (h : (after file t b e 2).point.Declined reason) (n : Nat) :
    (after file t b e (n + 2)).point.Declined reason ∧
      logged file (after file t b e (n + 2)).engine = logged file (after file t b e 2).engine := by
  induction n with
  | zero => exact ⟨h, rfl⟩
  | succ n ih =>
    rw [after_succ]
    obtain ⟨hdeclined, hlogged⟩ := declined_step file t ih.1
    exact ⟨hdeclined, hlogged.trans ih.2⟩

/-- The stages that a request logs are as far as it has come, and tell its result apart.  Here `trace n` are those that
were logged in the first `n` steps; what is left to do then makes it the whole request. -/
theorem formatNow_stages (hl : e.host.logLevel = .debug) :
    let formatted := (formatNow file b t).run e
    let way := after file t b e
    ∃ trace : Nat → List Stage,
      (∀ n, (logged file (way n).engine).2 = (logged file e).2 ++ trace n ∧
        ((way n).point.rest file t (way n).document).run (way n).engine = formatted) ∧
      ((way 9).point = .ended formatted.1.1 ∧ (way 9).document = formatted.1.2 ∧ (way 9).engine = formatted.2) ∧
      (trace 9 ≠ [] ∧ trace 9 <+: [.styleCheck, .resolving, .invoking, .decoding] ∨
        trace 9 = [.styleCheck, .resolving, .invoking, .decoding, .done] ∨
        trace 9 = [.styleCheck, .resolving, .invoking, .decoding, .locating, .applying] ∨
        trace 9 = [.styleCheck, .resolving, .invoking, .decoding, .locating, .applying, .done]) ∧
      (.done ∈ trace 9 ↔ (∃ count, formatted.1.1 = .ok (.applied count)) ∨ formatted.1.1 = .ok .noChanges) ∧
      ([.applying, .done].Sublist (trace 9) ↔ ∃ count, formatted.1.1 = .ok (.applied count)) ∧
      (∀ reason, (way 2).point = .judged (.ok (some reason)) →
        formatted.1.1 = .ok (.notApplicable reason) ∧ trace 9 = [.styleCheck]) ∧
      ∀ n, (∃ asked, (way (n + 1)).engine.host.calls.toList = (way n).engine.host.calls.toList ++ asked ∧
          ∀ c ∈ asked, c.invocation.IsFormatRun → .invoking ∈ trace n) ∧
        ((way (n + 1)).document ≠ (way n).document → .applying ∈ trace n) := by
  intro formatted way
  choose trace hlogged hfits using fits_after file t b e hl
  have hlogged (n : Nat) : (logged file (way n).engine).2 = (logged file e).2 ++ trace n := congrArg Prod.snd (hlogged n)
  have hfits (n : Nat) : (way n).point.Fits (trace n) := hfits n
  have hend : way 9 = ⟨.ended formatted.1.1, formatted.1.2, formatted.2⟩ := after_nine file t b e
  have hends : Point.Ends formatted.1.1 (trace 9) := by
    have hnine := hfits 9
    rw [hend] at hnine
    exact hnine
  -- All that is said of single steps follows from where they start, since that fixes the stages logged before.
  refine ⟨trace, fun n => ⟨hlogged n, rest_after file t b e n⟩, by simp [hend], hends.cases, hends.done_mem_iff,
    hends.sublist_iff, ?_, fun n => ⟨?_, ?_⟩⟩
  · intro reason hjudged
    have hdeclined : (way 2).point.Declined reason := by
      rw [hjudged]
      exact rfl
    obtain ⟨hpoint, hsame⟩ := declined_after file t b e hdeclined 7
    change (way 9).point.Declined reason at hpoint
    change logged file (way 9).engine = logged file (way 2).engine at hsame
    rw [hend] at hpoint
    refine ⟨hpoint, ?_⟩
    have htwo := hfits 2
    rw [hjudged] at htwo
    have htraces := congrArg Prod.snd hsame
    rw [hlogged, hlogged, List.append_cancel_left_eq] at htraces
    exact htraces.trans htwo
  · obtain ⟨asked, happend, hformats⟩ := (stride_after file t b e n).calls
    refine ⟨asked, happend, fun c hc hformat => ?_⟩
    obtain ⟨command, hpoint⟩ := hformats c hc hformat
    have htrace := hfits n
    rw [hpoint] at htrace
    rw [show trace n = _ from htrace]
    decide
  · intro hchanged
    obtain ⟨edit, hpoint⟩ := (stride_after file t b e n).document hchanged
    have htrace := hfits n
    rw [hpoint] at htrace
    rw [show trace n = _ from htrace]
    decide

end

/-- A file is changed, and both stages around that are logged, one before the other. -/
theorem formatNow_stages_picky :
    ((formatNow "/a.c" (Buffer.ofText "ab") 0).run { host := { Cli.pickyHost with logLevel := .debug } }).1.1 =
      .ok (.applied 1) ∧
    [.applying, .done].Sublist (logged "/a.c" ((formatNow "/a.c" (Buffer.ofText "ab") 0).run
      { host := { Cli.pickyHost with logLevel := .debug } }).2).2 := by
  have happlied : ((formatNow "/a.c" (Buffer.ofText "ab") 0).run
      { host := { Cli.pickyHost with logLevel := .debug } }).1.1 = .ok (.applied 1) := by decide +kernel
  obtain ⟨trace, hlogged, ⟨-, -, hengine⟩, -, -, hsub, -⟩ := formatNow_stages "/a.c" 0 (Buffer.ofText "ab")
    { host := { Cli.pickyHost with logLevel := .debug } } rfl
  refine ⟨happlied, ?_⟩
  rw [← hengine, (hlogged 9).1]
  exact List.sublist_append_of_sublist_right (hsub.mpr ⟨1, happlied⟩)

end Journey
end Restyle
