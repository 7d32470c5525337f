import Restyle.Proofs.Cli.Files
import Restyle.Proofs.Format.Prepare

/-! # Files in turn

The work on a file waits for the tool twice, once for the style and once for the edit, and meanwhile the work
on other files may go on.  Here it is cut into phases around these waits.  A schedule says which file goes on
next; finishing one file after the other is one schedule among many.
-/
namespace Restyle
open Work

namespace Engine

/-! ### Preparing in parts -/

/-- What is known about a file before the tool is asked for its style. -/
inductive Finding where
  | known (reason : Except Failure (Option Reason))
  | unknown (dependencies : DependencyKey)

/-- Looks for a reason not to format a file, as far as that goes without the tool. -/
def look (file : String) : Work Finding := do
  if !(← get).settings.enabled then return .known (.ok (some .disabled))
  if isConfigFile file then return .known (.ok (some .configurationFile))
  if !(← isConfigured file) then return .known (.ok (some .notConfigured))
  let dependencies ← dependencyKey file
  match (← get).styles.remembered? file dependencies with
  | some style => return .known (Reason.ofStyle file style)
  | none => return .unknown dependencies

def learn (file : String) (dependencies : DependencyKey) (style : Except Failure Style) :
    Work (Except Failure (Option Reason)) := do
  modify fun e => { e with styles := e.styles.remember file dependencies style }
  return Reason.ofStyle file style

def prepareFor (file : String) (ticket : Ticket) : Except Failure (Option Reason) → Work (Except Failure Prepared)
  | .error f => return .error f
  | .ok (some reason) => do
    debug s!"Not formatting {file}: {reason.describe}"
    return .ok (.done (.notApplicable reason))
  | .ok none => requestEdit file ticket.source ticket.stamp ticket.token

def ask (file : String) (t : Token) : Finding → Work (Except Failure (Option Reason))
  | .known reason => return reason
  | .unknown dependencies => do learn file dependencies (← computeStyle file dependencies t)

variable {file : String} {t : Token} {e mid : Engine} {dependencies : DependencyKey}

theorem styleFor_of_some (hkey : (dependencyKey file).run e = (dependencies, mid)) {style : Except Failure Style}
    (h : mid.styles.remembered? file dependencies = some style) : (styleFor file t).run e = (style, mid) := by
  unfold styleFor
  have hget : (get : Work Engine).run mid = (mid, mid) := rfl
  rw [Work.run_bind, hkey, Work.run_bind, hget]
  dsimp only
  rw [h]
  rfl

theorem styleFor_of_none (hkey : (dependencyKey file).run e = (dependencies, mid))
    (h : mid.styles.remembered? file dependencies = none) :
    let computed := (computeStyle file dependencies t).run mid
    (styleFor file t).run e =
      (computed.1, { computed.2 with styles := computed.2.styles.remember file dependencies computed.1 }) := by
  unfold styleFor
  have hget : (get : Work Engine).run mid = (mid, mid) := rfl
  rw [Work.run_bind, hkey, Work.run_bind, hget]
  dsimp only
  rw [h]
  rfl

def Finding.ofRemembered (file : String) (dependencies : DependencyKey) : Option (Except Failure Style) → Finding
  | some style => known (Reason.ofStyle file style)
  | none => unknown dependencies

theorem run_look (file : String) (e : Engine) : (look file).run e =
    if e.settings.enabled = false then (.known (.ok (some .disabled)), e)
    else if isConfigFile file = true then (.known (.ok (some .configurationFile)), e)
    else if ((configFiles file).run e).1.isEmpty = true then
      (.known (.ok (some .notConfigured)), ((configFiles file).run e).2)
    else
      let found := (dependencyKey file).run ((configFiles file).run e).2
      (.ofRemembered file found.1 (found.2.styles.remembered? file found.1), found.2) := by
  have hget (e : Engine) : (get : Work Engine).run e = (e, e) := rfl
  have hconfigured : (isConfigured file).run e =
      (!((configFiles file).run e).1.isEmpty, ((configFiles file).run e).2) := rfl
  unfold look
  rw [Work.run_bind, hget]
  dsimp only
  cases henabled : e.settings.enabled with
  | false => rfl
  | true =>
    cases hfile : isConfigFile file with
    | true => rfl
    | false =>
      simp only [Bool.not_true, Bool.false_eq_true, if_false, Bool.true_eq_false]
      rw [Work.run_bind, hconfigured]
      dsimp only
      cases hchain : ((configFiles file).run e).1.isEmpty with
      | true => rfl
      | false =>
        simp only [Bool.not_false, Bool.not_true, Bool.false_eq_true, if_false]
        rw [Work.run_bind]
        generalize (dependencyKey file).run ((configFiles file).run e).2 = found
        obtain ⟨dependencies, mid⟩ := found
        dsimp only
        rw [Work.run_bind, hget]
        dsimp only
        cases mid.styles.remembered? file dependencies with
        | some style => rfl
        | none => rfl

theorem run_look_bind_ask (file : String) (t : Token) (e : Engine) :
    (look file >>= ask file t).run e = (reason? file t).run e := by
  rw [run_reason?, Work.run_bind, run_look]
  split
  · rfl
  split
  · rfl
  split
  · rfl
  · rw [← run_styleFor_configFiles]
    cases hkey : (dependencyKey file).run ((configFiles file).run e).2 with
    | mk dependencies mid =>
      dsimp only
      cases hremembered : mid.styles.remembered? file dependencies with
      | some style =>
        rw [styleFor_of_some hkey hremembered]
        rfl
      | none =>
        rw [styleFor_of_none hkey hremembered]
        rfl

theorem run_prepare (file : String) (ticket : Ticket) (e : Engine) :
    (prepare file ticket.source ticket.stamp ticket.token).run e =
      ((stage .styleCheck file >>= fun _ => look file) >>= fun finding =>
        ask file ticket.token finding >>= prepareFor file ticket).run e := by
  unfold prepare
  rw [Work.run_bind, Work.run_bind, Work.run_bind, Work.run_bind]
  have hask := run_look_bind_ask file ticket.token ((stage .styleCheck file).run e).2
  rw [Work.run_bind] at hask
  rw [Work.run_bind, hask]
  generalize (reason? file ticket.token).run ((stage .styleCheck file).run e).2 = judged
  obtain ⟨reason, mid⟩ := judged
  rcases reason with f | reason | reason
  · rfl
  · rfl
  · rfl

theorem run_finish (file : String) (ticket : Ticket) (e : Engine) : (finish file ticket).run e =
    (prepare file ticket.source ticket.stamp ticket.token >>= conclude file ticket).run e := rfl

end Engine

namespace AcrossRequests

variable {R : Engine → Engine → Prop}

theorem moves_look (h : AcrossRequests R) (file : String) : Moves R (Engine.look file) := by
  unfold Engine.look
  refine h.get_bind fun e => ?_
  split
  · exact h.pure _
  split
  · exact h.pure _
  refine h.bind (h.bind (fun e => h.chains e _) fun _ => h.pure _) fun configured => ?_
  split
  · exact h.pure _
  refine h.bind (h.moves_dependencyKey file) fun dependencies => h.get_bind fun e => ?_
  split
  · exact h.pure _
  · exact h.pure _

theorem moves_learn (h : AcrossRequests R) (file : String) (dependencies : DependencyKey)
    (style : Except Failure Style) : Moves R (Engine.learn file dependencies style) := by
  unfold Engine.learn
  exact h.bind (fun e => h.remember e file dependencies style) fun _ => h.pure _

theorem moves_prepareFor (h : AcrossRequests R) (file : String) (ticket : Ticket)
    (reason : Except Failure (Option Reason)) : Moves R (Engine.prepareFor file ticket reason) := by
  unfold Engine.prepareFor
  split
  · exact h.pure _
  · exact h.debug_bind fun _ => h.pure _
  · exact h.moves_requestEdit _ _ _ _

end AcrossRequests

namespace Cli
open Engine

/-! ### Phases -/

/-- How far the work on a file has come. -/
inductive Phase where
  | waiting
  | begun (ticket : Ticket)
  | unstyled (ticket : Ticket) (dependencies : DependencyKey)
  | styled (ticket : Ticket) (dependencies : DependencyKey) (style : Except Failure Style)
  | judged (ticket : Ticket) (reason : Except Failure (Option Reason))
  /-- The tool answered to the text, unless it was not asked. -/
  | prepared (ticket : Ticket) (result : Except Failure Prepared)
  | ended (result : FileResult)

/-- What a request that ended means for its file, which is written if that is wanted. -/
def close (write : Bool) (file : String) (ticket : Ticket) : Except Failure Outcome → Work FileResult
  | .ok (.applied count) => do
    debug s!"Applied {count} replacements to {file}"
    if write then
      modify fun e =>
        let bytes := Utf8.encode (e.desk.document ticket.document).text
        { e with host := { e.host with files := e.host.files.write file bytes } }
    return .changed file
  | .ok outcome => do
    debug s!"{file}: {outcome.describe}"
    return .unchanged
  | .error _ => return .failed

def Phase.afterLook (ticket : Ticket) : Finding → Phase
  | .known reason => judged ticket reason
  | .unknown dependencies => unstyled ticket dependencies

def Phase.ofTicket : Option Ticket → Phase
  | some ticket => begun ticket
  | none => ended .failed

def Phase.next (write : Bool) (file name : String) : Phase → Work Phase
  | waiting => do return ofTicket (← startFile file name)
  | begun ticket => do
    stage .styleCheck file
    return afterLook ticket (← look file)
  | unstyled ticket dependencies => do
    return styled ticket dependencies (← computeStyle file dependencies ticket.token)
  | styled ticket dependencies style => do return judged ticket (← learn file dependencies style)
  | judged ticket reason => do return prepared ticket (← prepareFor file ticket reason)
  | prepared ticket result => do return ended (← close write file ticket (← conclude file ticket result))
  | ended result => return ended result

def Phase.steps (write : Bool) (file name : String) : Nat → Phase → Work Phase
  | 0, p => return p
  | n + 1, p => do steps write file name n (← p.next write file name)

theorem run_finishFile (write : Bool) (file : String) (ticket : Ticket) (e : Engine) :
    (finishFile write file ticket).run e = (finish file ticket >>= close write file ticket).run e := by
  unfold finishFile
  rw [Work.run_bind, Work.run_bind]
  rcases ((finish file ticket).run e).1 with f | outcome
  · rfl
  · cases outcome <;> rfl

theorem Phase.steps_ended (write : Bool) (file name : String) (n : Nat) (result : FileResult) :
    steps write file name n (ended result) = pure (ended result) := by
  induction n with
  | zero => rfl
  | succ n ih => exact ih

section
variable (write : Bool) (file name : String) (n : Nat) (ticket : Ticket) (e : Engine)

theorem Phase.run_steps_prepared (result : Except Failure Prepared) :
    let rest := (conclude file ticket result >>= close write file ticket).run e
    (steps write file name (n + 1) (prepared ticket result)).run e = (ended rest.1, rest.2) := by
  intro rest
  have hnext : (next write file name (prepared ticket result)).run e = (ended rest.1, rest.2) := rfl
  rw [steps, Work.run_bind, hnext, steps_ended]
  rfl

theorem Phase.run_steps_judged (reason : Except Failure (Option Reason)) :
    let result := (prepareFor file ticket reason).run e
    let rest := (conclude file ticket result.1 >>= close write file ticket).run result.2
    (steps write file name (n + 2) (judged ticket reason)).run e = (ended rest.1, rest.2) := by
  intro result rest
  have hnext : (next write file name (judged ticket reason)).run e = (prepared ticket result.1, result.2) := rfl
  rw [steps, Work.run_bind, hnext]
  exact run_steps_prepared write file name n ticket result.2 result.1

/-- A file that was read is through after five phases. -/
theorem Phase.run_steps_begun :
    let finished := (finishFile write file ticket).run e
    (steps write file name 5 (begun ticket)).run e = (ended finished.1, finished.2) := by
  dsimp only
  rw [run_finishFile, Work.run_bind, run_finish, Work.run_bind, run_prepare, Work.run_bind]
  have hnext : (next write file name (begun ticket)).run e =
      (afterLook ticket ((stage .styleCheck file >>= fun _ => look file).run e).1,
        ((stage .styleCheck file >>= fun _ => look file).run e).2) := rfl
  rw [steps, Work.run_bind, hnext]
  generalize (stage .styleCheck file >>= fun _ => look file).run e = found
  obtain ⟨finding, mid⟩ := found
  cases finding with
  | known reason => exact run_steps_judged write file name 2 ticket mid reason
  | unknown dependencies =>
    let computed := (computeStyle file dependencies ticket.token).run mid
    have hstyled : (next write file name (unstyled ticket dependencies)).run mid =
        (styled ticket dependencies computed.1, computed.2) := rfl
    let learnt := (learn file dependencies computed.1).run computed.2
    have hjudged : (next write file name (styled ticket dependencies computed.1)).run computed.2 =
        (judged ticket learnt.1, learnt.2) := rfl
    dsimp only [afterLook]
    rw [steps, Work.run_bind, hstyled, steps, Work.run_bind, hjudged]
    exact run_steps_judged write file name 0 ticket learnt.2 learnt.1

end

/-! ### Schedules -/

structure Job where
  file : String
  name : String
  phase : Phase := .waiting

/-- Files that are worked on, and the engine that they share. -/
structure Round where
  jobs : List Job
  engine : Engine

def Job.advance (write : Bool) (job : Job) : Work Job := do
  return { job with phase := ← job.phase.next write job.file job.name }

def Round.tick (write : Bool) (r : Round) (i : Nat) : Round :=
  match r.jobs[i]? with
  | none => r
  | some job =>
    let advanced := (job.advance write).run r.engine
    ⟨r.jobs.set i advanced.1, advanced.2⟩

def Round.run (write : Bool) (r : Round) (schedule : List Nat) : Round := schedule.foldl (tick write) r

def jobsFrom (number : Nat) : List String → List Job
  | [] => []
  | file :: files => { file, name := toString number } :: jobsFrom (number + 1) files

def begunFrom (number : Nat) : List (String × Option Ticket) → List Job
  | [] => []
  | (file, ticket) :: rest => ⟨file, toString number, .ofTicket ticket⟩ :: begunFrom (number + 1) rest

variable {write : Bool}

theorem Round.run_append (r : Round) (first second : List Nat) :
    r.run write (first ++ second) = (r.run write first).run write second := List.foldl_append

theorem Round.tick_mid (front back : List Job) (job : Job) (e : Engine) :
    let advanced := (job.advance write).run e
    tick write ⟨front ++ job :: back, e⟩ front.length = ⟨front ++ advanced.1 :: back, advanced.2⟩ := by
  unfold tick
  dsimp only
  rw [List.getElem?_append_right (Nat.le_refl _), Nat.sub_self, List.getElem?_cons_zero]
  dsimp only
  rw [List.set_append_right _ _ (Nat.le_refl _), Nat.sub_self, List.set_cons_zero]

theorem Round.run_replicate (n : Nat) (front back : List Job) (job : Job) (e : Engine) :
    let stepped := (job.phase.steps write job.file job.name n).run e
    Round.run write ⟨front ++ job :: back, e⟩ (List.replicate n front.length) =
      ⟨front ++ { job with phase := stepped.1 } :: back, stepped.2⟩ := by
  induction n generalizing job e with
  | zero => rfl
  | succ n ih =>
    have hnext := ih ((job.advance write).run e).1 ((job.advance write).run e).2
    rw [← tick_mid] at hnext
    exact hnext

theorem exists_schedule_startAll (write : Bool) (front : List Job) (number : Nat) (files : List String) (e : Engine) :
    let started := (startAll number files).run e
    ∃ schedule, Round.run write ⟨front ++ jobsFrom number files, e⟩ schedule =
      ⟨front ++ begunFrom number started.1, started.2⟩ := by
  induction files generalizing front number e with
  | nil => exact ⟨[], rfl⟩
  | cons file files ih =>
    let first := (startFile file (toString number)).run e
    let job : Job := ⟨file, toString number, .ofTicket first.1⟩
    obtain ⟨schedule, hrest⟩ := ih (front ++ [job]) (number + 1) first.2
    refine ⟨front.length :: schedule, ?_⟩
    rw [List.append_assoc, List.append_assoc] at hrest
    refine Eq.trans ?_ hrest
    refine congrArg (Round.run write · schedule) ?_
    exact Round.tick_mid front _ _ e

theorem exists_schedule_finishAll (write : Bool) (front : List Job) (number : Nat)
    (started : List (String × Option Ticket)) (e : Engine) :
    let finished := (finishAll write started).run e
    ∃ schedule jobs, Round.run write ⟨front ++ begunFrom number started, e⟩ schedule = ⟨front ++ jobs, finished.2⟩ ∧
      jobs.map (·.phase) = finished.1.map .ended := by
  induction started generalizing front number e with
  | nil => exact ⟨[], [], rfl, rfl⟩
  | cons entry rest ih =>
    obtain ⟨file, ticket⟩ := entry
    cases ticket with
    | none =>
      let job : Job := ⟨file, toString number, .ended .failed⟩
      obtain ⟨schedule, jobs, hrest, hphases⟩ := ih (front ++ [job]) (number + 1) e
      rw [List.append_assoc, List.append_assoc] at hrest
      exact ⟨schedule, job :: jobs, hrest, congrArg (Phase.ended .failed :: ·) hphases⟩
    | some ticket =>
      let first := (finishFile write file ticket).run e
      let job : Job := ⟨file, toString number, .ended first.1⟩
      obtain ⟨schedule, jobs, hrest, hphases⟩ := ih (front ++ [job]) (number + 1) first.2
      rw [List.append_assoc, List.append_assoc] at hrest
      refine ⟨List.replicate 5 front.length ++ schedule, job :: jobs, ?_, congrArg (Phase.ended first.1 :: ·) hphases⟩
      rw [Round.run_append, begunFrom, Round.run_replicate]
      refine Eq.trans ?_ hrest
      refine congrArg (Round.run write · schedule) ?_
      have hsteps := Phase.run_steps_begun write file (toString number) ticket e
      dsimp only [Phase.ofTicket]
      rw [hsteps]
      rfl

/-- Formatting files as a whole is to let them go on in the order of some schedule. -/
theorem exists_schedule (write : Bool) (files : List String) (e : Engine) :
    let finished := (startAll 0 files >>= finishAll write).run e
    ∃ schedule, let ended := Round.run write ⟨jobsFrom 0 files, e⟩ schedule
      ended.engine = finished.2 ∧ ended.jobs.map (·.phase) = finished.1.map .ended := by
  obtain ⟨first, hfirst⟩ := exists_schedule_startAll write [] 0 files e
  obtain ⟨second, jobs, hsecond, hphases⟩ :=
    exists_schedule_finishAll write [] 0 ((startAll 0 files).run e).1 ((startAll 0 files).run e).2
  refine ⟨first ++ second, ?_⟩
  simp only [List.nil_append] at hfirst hsecond
  dsimp only
  rw [Round.run_append, hfirst, hsecond]
  exact ⟨rfl, hphases⟩

end Cli
end Restyle
