import Mathlib.Logic.Relation
import Restyle.Proofs.Cli.Schedule

/-! # Paths that cannot be resolved

The task of a request hands its files over one after the other, each to a task of its own, and stops at the
first path that cannot be resolved.  Tasks are not interrupted: those of files go on only while that of the
request waits for them, so none of them began when it stops.
-/
namespace Restyle.Cli
open Engine Relation

def locate (h : Host) (path : String) : Except FileFault String :=
  h.files.canonicalize h.directory (h.absolute path)

inductive Duty where
  | resolving (paths : List String)
  | awaiting
  | stopped (fault : Fault)

/-- The task of a request and those of its files. -/
structure Handover where
  duty : Duty
  round : Round

def Round.add (r : Round) (file : String) : Round :=
  { r with jobs := r.jobs ++ [{ file, name := toString r.jobs.length }] }

inductive Handover.Step (write : Bool) : Handover → Handover → Prop
  | found {path file : String} (paths : List String) (r : Round) (h : locate r.engine.host path = .ok file) :
      Step write ⟨.resolving (path :: paths), r⟩ ⟨.resolving paths, r.add file⟩
  | unresolved {path : String} {fault : FileFault} (paths : List String) (r : Round)
      (h : locate r.engine.host path = .error fault) :
      Step write ⟨.resolving (path :: paths), r⟩ ⟨.stopped (.unresolved (r.engine.host.absolute path) fault), r⟩
  | all (r : Round) : Step write ⟨.resolving [], r⟩ ⟨.awaiting, r⟩
  /-- A task of a file goes on, while that of the request waits. -/
  | other (r : Round) (i : Nat) : Step write ⟨.awaiting, r⟩ ⟨.awaiting, r.tick write i⟩

def Handover.start (paths : List String) (e : Engine) : Handover := ⟨.resolving paths, ⟨[], e⟩⟩

variable {write : Bool} {e : Engine}

theorem add_jobs (r : Round) (file : String) (number : Nat) (files : List String) (h : r.jobs.length = number) :
    (r.add file).jobs ++ jobsFrom (number + 1) files = r.jobs ++ jobsFrom number (file :: files) := by
  simp [Round.add, jobsFrom, h]

/-- Files that are found are handed over in order, and wait. -/
theorem reaches_found {paths files : List String} (rest : List String) (r : Round)
    (h : List.Forall₂ (fun path file => locate r.engine.host path = .ok file) paths files) :
    ReflTransGen (Handover.Step write) ⟨.resolving (paths ++ rest), r⟩
      ⟨.resolving rest, ⟨r.jobs ++ jobsFrom r.jobs.length files, r.engine⟩⟩ := by
  generalize hhost : r.engine.host = host at h
  induction h generalizing r with
  | nil =>
    simp only [jobsFrom, List.append_nil]
    exact ReflTransGen.refl
  | @cons path file paths files hfound _ ih =>
    have hrest := ih (r.add file) hhost
    have hlength : (r.add file).jobs.length = r.jobs.length + 1 := by simp [Round.add]
    rw [hlength, add_jobs r file _ files rfl] at hrest
    apply ReflTransGen.head _ hrest
    apply Handover.Step.found
    rw [hhost]
    exact hfound

/-- Either all paths are found, or there is a first one that is not. -/
theorem found_or_unresolved (h : Host) (paths : List String) :
    (∃ files, List.Forall₂ (fun path file => locate h path = .ok file) paths files) ∨
    ∃ before bad after fault files, paths = before ++ bad :: after ∧ locate h bad = .error fault ∧
      List.Forall₂ (fun path file => locate h path = .ok file) before files := by
  induction paths with
  | nil => exact Or.inl ⟨[], .nil⟩
  | cons path paths ih =>
    cases hpath : locate h path with
    | error fault => exact Or.inr ⟨[], path, paths, fault, [], rfl, hpath, .nil⟩
    | ok file =>
      rcases ih with ⟨files, hfiles⟩ | ⟨before, bad, after, fault, files, rfl, hbad, hfiles⟩
      · exact Or.inl ⟨file :: files, .cons hpath hfiles⟩
      · exact Or.inr ⟨path :: before, bad, after, fault, file :: files, rfl, hbad, .cons hpath hfiles⟩

theorem exists_file {h : Host} {paths files : List String} {path : String}
    (hfiles : List.Forall₂ (fun path file => locate h path = .ok file) paths files) (hmem : path ∈ paths) :
    ∃ file, locate h path = .ok file := by
  obtain ⟨i, hi, rfl⟩ := List.getElem_of_mem hmem
  exact ⟨_, hfiles.get hi (hfiles.length_eq ▸ hi)⟩

section
variable {before files : List String} {bad : String} {fault : FileFault} (after : List String)

theorem resolveAll_unresolved (hbad : locate e.host bad = .error fault)
    (hfiles : List.Forall₂ (fun path file => locate e.host path = .ok file) before files) :
    (resolveAll (before ++ bad :: after)).run e = (.error (.unresolved (e.host.absolute bad) fault), e) := by
  induction hfiles with
  | nil =>
    simp only [List.nil_append, resolveAll, Work.run_bind]
    split
    · rename_i other hother
      cases hother.symm.trans hbad
      rfl
    · rename_i other hother
      cases hother.symm.trans hbad
  | @cons path file before files hfound _ ih =>
    simp only [List.cons_append, resolveAll, Work.run_bind]
    split
    · rename_i other hother
      cases hother.symm.trans hfound
    · have hget : ((get : Work Engine).run e).2 = e := rfl
      rw [Work.run_bind, hget, ih]
      rfl

theorem runFiles_unresolved (hbad : locate e.host bad = .error fault)
    (hfiles : List.Forall₂ (fun path file => locate e.host path = .ok file) before files) (write : Bool) :
    (runFiles (before ++ bad :: after) write).run e = (.error (.unresolved (e.host.absolute bad) fault), e) := by
  have hne : (before ++ bad :: after).isEmpty = false := by simp
  unfold runFiles
  rw [hne, if_neg Bool.false_ne_true, Work.run_bind, resolveAll_unresolved after hbad hfiles]
  rfl

theorem act_unresolved {request : Args.Action} (hbad : locate e.host bad = .error fault)
    (hfiles : List.Forall₂ (fun path file => locate e.host path = .ok file) before files)
    (h : request = .format (before ++ bad :: after) ∨ request = .check (before ++ bad :: after)) :
    (act request).run e = (.error (.unresolved (e.host.absolute bad) fault), e) := by
  rcases h with rfl | rfl
  · have hrun := runFiles_unresolved after hbad hfiles true
    simp only [act, formatFiles, Work.run_bind, hrun]
    rfl
  · have hrun := runFiles_unresolved after hbad hfiles false
    simp only [act, checkFiles, Work.run_bind, hrun]
    rfl

theorem reaches_stopped (r : Round) (hbad : locate r.engine.host bad = .error fault)
    (hfiles : List.Forall₂ (fun path file => locate r.engine.host path = .ok file) before files) :
    ReflTransGen (Handover.Step write) ⟨.resolving (before ++ bad :: after), r⟩
      ⟨.stopped (.unresolved (r.engine.host.absolute bad) fault), ⟨r.jobs ++ jobsFrom r.jobs.length files, r.engine⟩⟩ := by
  apply (reaches_found (bad :: after) r hfiles).tail
  exact Handover.Step.unresolved after ⟨r.jobs ++ jobsFrom r.jobs.length files, r.engine⟩ hbad

end

theorem reaches_run (r : Round) (schedule : List Nat) :
    ReflTransGen (Handover.Step write) ⟨.awaiting, r⟩ ⟨.awaiting, r.run write schedule⟩ := by
  induction schedule generalizing r with
  | nil => exact ReflTransGen.refl
  | cons i schedule ih => exact ReflTransGen.head (.other r i) (ih (r.tick write i))

/-- To format files as a whole is one way to hand them over and let them go on. -/
theorem exists_handover (write : Bool) {paths : List String} (hne : paths ≠ []) (e : Engine) :
    let finished := (runFiles paths write).run e
    ∃ o, ReflTransGen (Handover.Step write) (.start paths e) o ∧ o.round.engine = finished.2 ∧
      match finished.1 with
      | .error fault => o.duty = .stopped fault
      | .ok summary => o.duty = .awaiting ∧
          ∃ results, o.round.jobs.map (·.phase) = results.map .ended ∧ summary = .ofResults results := by
  intro finished
  rcases found_or_unresolved e.host paths with ⟨files, hfiles⟩ | ⟨before, bad, after, fault, files, rfl, hbad, hfiles⟩
  · obtain ⟨schedule, hengine, hphases⟩ := exists_schedule write files e
    have hrun : finished = _ := run_runFiles hne hfiles write
    have hreached : ReflTransGen (Handover.Step write) _ _ := reaches_found [] ⟨[], e⟩ hfiles
    rw [List.append_nil] at hreached
    refine ⟨⟨.awaiting, Round.run write ⟨jobsFrom 0 files, e⟩ schedule⟩, ?_, ?_, ?_⟩
    · apply (hreached.tail (.all _)).trans
      simp only [List.nil_append, List.length_nil]
      exact reaches_run _ schedule
    · rw [hrun]
      exact hengine
    · rw [hrun]
      exact ⟨rfl, _, hphases, rfl⟩
  · have hrun : finished = _ := runFiles_unresolved after hbad hfiles write
    refine ⟨_, reaches_stopped after ⟨[], e⟩ hbad hfiles, ?_, ?_⟩
    · rw [hrun]
    · rw [hrun]

/-! ### Nothing is begun -/

/-- The task of a request is on its way to a path that cannot be resolved, or stopped there. -/
structure Handover.Doomed (e : Engine) (bad : String) (fault : FileFault) (o : Handover) : Prop where
  engine : o.round.engine = e
  waiting : ∀ job ∈ o.round.jobs, job.phase = .waiting
  duty : o.duty = .stopped (.unresolved (e.host.absolute bad) fault) ∨ ∃ before after files,
    o.duty = .resolving (before ++ bad :: after) ∧ List.Forall₂ (fun path file => locate e.host path = .ok file) before files

variable {bad : String} {fault : FileFault} {o next : Handover}

theorem Handover.Doomed.step (hbad : locate e.host bad = .error fault) (h : o.Doomed e bad fault)
    (hs : Step write o next) : next.Doomed e bad fault := by
  obtain ⟨rfl, hwaiting, hduty⟩ := h
  cases hs with
  | @found path file paths r hfound =>
    rcases hduty with hduty | ⟨before, after, files, hduty, hfiles⟩
    · cases hduty
    · refine ⟨rfl, ?_, Or.inr ?_⟩
      · intro job hjob
        rcases List.mem_append.mp hjob with hjob | hjob
        · exact hwaiting job hjob
        · obtain rfl := List.mem_singleton.mp hjob
          rfl
      · -- The path that was found is not the bad one.
        cases hfiles with
        | nil =>
          cases hduty
          cases hfound.symm.trans hbad
        | @cons _ _ before files _ hrest =>
          cases hduty
          exact ⟨before, after, files, rfl, hrest⟩
  | @unresolved path other paths r hother =>
    rcases hduty with hduty | ⟨before, after, files, hduty, hfiles⟩
    · cases hduty
    · refine ⟨rfl, hwaiting, Or.inl ?_⟩
      cases hfiles with
      | nil =>
        cases hduty
        cases hother.symm.trans hbad
        rfl
      | cons hfound _ =>
        cases hduty
        cases hother.symm.trans hfound
  | all r =>
    rcases hduty with hduty | ⟨before, after, files, hduty, -⟩
    · cases hduty
    · simp at hduty
  | other r i =>
    rcases hduty with hduty | ⟨before, after, files, hduty, -⟩
    · cases hduty
    · cases hduty

theorem Handover.Doomed.run (hbad : locate e.host bad = .error fault) (h : o.Doomed e bad fault)
    (hs : ReflTransGen (Step write) o next) : next.Doomed e bad fault := by
  induction hs with
  | refl => exact h
  | tail _ hstep ih => exact ih.step hbad hstep

/-- From wherever it is, the task of such a request comes to its end, with nothing else done. -/
theorem Handover.Doomed.stops (hbad : locate e.host bad = .error fault) (h : o.Doomed e bad fault) :
    ∃ jobs, ReflTransGen (Step write) o ⟨.stopped (.unresolved (e.host.absolute bad) fault), ⟨jobs, e⟩⟩ := by
  obtain ⟨duty, r⟩ := o
  obtain ⟨hengine, -, hduty⟩ := h
  dsimp only at hengine hduty
  subst hengine
  rcases hduty with hduty | ⟨before, after, files, hduty, hfiles⟩
  · exact ⟨r.jobs, hduty ▸ ReflTransGen.refl⟩
  · exact ⟨_, hduty ▸ reaches_stopped after r hbad hfiles⟩

/-- A request to format or check files fails if a path cannot be resolved, wherever it stands in the list: the
error names the first such path, and no file was written, no tool called and nothing printed.  However tasks take
turns, none of a file begins. -/
theorem run_unresolved (h : Host) (request : Args.Request) (settings : Settings) (paths : List String)
    (haction : request.action = .format paths ∨ request.action = .check paths)
    (hsettings : (Settings.resolve h request).1 = .ok settings)
    (hpaths : ∃ path ∈ paths, ∃ fault, locate h path = .error fault) :
    let e : Engine := { host := (Settings.resolve h request).2, settings, logsNotices := true }
    ∃ before bad after fault, paths = before ++ bad :: after ∧
      (∀ path ∈ before, ∃ file, locate h path = .ok file) ∧ locate h bad = .error fault ∧
      (run h request).1 = .error (.unresolved (h.absolute bad) fault) ∧ exitCode (run h request).1 = 1 ∧
      Fault.messages (.unresolved (h.absolute bad) fault) = [s!"Error resolving {h.absolute bad}", fault.message] ∧
      (run h request).2 = (Settings.resolve h request).2 ∧ (run h request).2.files = h.files ∧
      (run h request).2.calls = h.calls ∧ (run h request).2.out = h.out ∧
      ∀ write o, ReflTransGen (Handover.Step write) (.start paths e) o →
        o.round.engine = e ∧ (∀ job ∈ o.round.jobs, job.phase = .waiting) ∧
        ∃ jobs, ReflTransGen (Handover.Step write) o ⟨.stopped (.unresolved (h.absolute bad) fault), ⟨jobs, e⟩⟩ := by
  intro e
  obtain ⟨err, hhost⟩ := resolve_host h request
  have hlocate (path : String) : locate e.host path = locate h path := by simp [e, hhost, locate, Host.absolute]
  rcases found_or_unresolved e.host paths with ⟨files, hfiles⟩ | ⟨before, bad, after, fault, files, rfl, hbad, hfiles⟩
  · obtain ⟨path, hpath, fault, hfault⟩ := hpaths
    obtain ⟨file, hfile⟩ := exists_file hfiles hpath
    rw [hlocate, hfault] at hfile
    cases hfile
  have habsolute : e.host.absolute bad = h.absolute bad := by simp [e, hhost, Host.absolute]
  have hact := act_unresolved after hbad hfiles haction
  have hrun : run h request = (.error (.unresolved (h.absolute bad) fault), (Settings.resolve h request).2) := by
    have hresolve : Settings.resolve h request = (.ok settings, (Settings.resolve h request).2) :=
      Prod.ext hsettings rfl
    unfold run
    rcases haction with haction | haction
    · rw [haction] at hact ⊢
      dsimp only
      rw [hresolve]
      dsimp only
      rw [hact, habsolute]
    · rw [haction] at hact ⊢
      dsimp only
      rw [hresolve]
      dsimp only
      rw [hact, habsolute]
  refine ⟨before, bad, after, fault, rfl, ?_, ?_, ?_, ?_, rfl, ?_, ?_, ?_, ?_, ?_⟩
  · intro path hpath
    rw [← hlocate]
    exact exists_file hfiles hpath
  · rw [← hlocate]
    exact hbad
  · rw [hrun]
  · rw [hrun]
    rfl
  · rw [hrun]
  · rw [hrun, hhost]
  · rw [hrun, hhost]
  · rw [hrun, hhost]
  · intro write o ho
    have hstart : (Handover.start (before ++ bad :: after) e).Doomed e bad fault :=
      ⟨rfl, by simp [Handover.start], Or.inr ⟨before, after, files, rfl, hfiles⟩⟩
    have hdoomed := hstart.run hbad ho
    rw [← habsolute]
    exact ⟨hdoomed.engine, hdoomed.waiting, hdoomed.stops hbad⟩

/-- The second of three paths leads nowhere, so the file before it is not formatted either. -/
theorem run_unresolved_gone :
    let request : Args.Request := { action := .format ["/a.c", "gone.c", "b.c"] }
    (run pickyHost request).1 = .error (.unresolved "/gone.c" (.nothingAt "/gone.c")) ∧
    (run pickyHost request).2.files = pickyHost.files ∧ (run pickyHost request).2.calls = #[] := by
  intro request
  have hfirst : locate pickyHost "/a.c" = .ok "/a.c" := by decide +kernel
  have hgone : locate pickyHost "gone.c" = .error (.nothingAt "/gone.c") := by decide +kernel
  obtain ⟨before, bad, after, fault, hpaths, hbefore, hbad, hresult, -, -, -, hfiles, hcalls, -⟩ :=
    run_unresolved pickyHost request {} ["/a.c", "gone.c", "b.c"] (Or.inl rfl) rfl ⟨"gone.c", by simp, _, hgone⟩
  refine ⟨?_, hfiles, hcalls⟩
  rcases before with _ | ⟨first, _ | ⟨second, rest⟩⟩
  · obtain ⟨rfl, -⟩ := List.cons.inj hpaths
    cases hbad.symm.trans hfirst
  · obtain ⟨-, hpaths⟩ := List.cons.inj hpaths
    obtain ⟨rfl, -⟩ := List.cons.inj hpaths
    cases hbad.symm.trans hgone
    exact hresult
  · obtain ⟨-, hpaths⟩ := List.cons.inj hpaths
    obtain ⟨rfl, -⟩ := List.cons.inj hpaths
    obtain ⟨file, hfile⟩ := hbefore "gone.c" (by simp)
    cases hfile.symm.trans hgone

end Restyle.Cli
