import Mathlib.Data.List.Perm.Basic
import Restyle.Proofs.Cli.Alone

/-! # Checking and formatting

Checking files finds what formatting them would change, in whatever order their runs of the tool end.  For a
tool that reads nothing but configuration files, a file that was written meanwhile makes no difference.
-/
namespace Restyle.Cli
open Restyle.Path Engine Work

variable {s : Settings} {h : Host} {files paths : List String} {e after : Engine} {write : Bool}

/-! ### All files at once -/

theorem Shared.run_all (hs : Shared s h files e) (ha : Apart h files) (he : e.host.files = h.files) (write : Bool) :
    let finished := (startAll 0 files >>= finishAll write).run e
    finished.1 = files.map (verdict s h) ∧ Shared s h files finished.2 ∧
      (∀ path, finished.2.host.files.bytes? path = settled s h files write path) ∧
      (write = false → finished.2.host.files = h.files) := by
  obtain ⟨schedule, hengine, hphases⟩ := exists_schedule write files e
  have hsteady := (hs.steady he write).run ha schedule
  dsimp only at hengine hphases ⊢
  have hended : (Round.run write ⟨jobsFrom 0 files, e⟩ schedule).Ended := by
    intro job hjob
    have hmem := List.mem_map_of_mem (f := Job.phase) hjob
    rw [hphases] at hmem
    obtain ⟨result, -, hresult⟩ := List.mem_map.mp hmem
    exact ⟨result, hresult.symm⟩
  obtain ⟨hverdicts, hbytes⟩ := hsteady.ended ha hended
  rw [← hengine]
  refine ⟨?_, hsteady.shared, hbytes, hsteady.unwritten⟩
  have hmap := hphases.symm.trans hverdicts
  have hcomp : files.map (fun file => Phase.ended (verdict s h file)) = (files.map (verdict s h)).map .ended := by
    rw [List.map_map]
    rfl
  rw [hcomp] at hmap
  exact List.map_injective_iff.mpr (fun _ _ heq => by cases heq; rfl) hmap

/-! ### What is printed -/

def listedLine (file : String) : String :=
  let mark := boldRed "from"
  s!"{mark} {file}"

def formattedLine (count : Nat) : String := s!"Formatted {bold (toString count)} {fileNoun count}."

def Summary.verify (s : Summary) : Except Fault Unit :=
  s.check.bind fun _ => if s.changed.isEmpty then .ok () else .error (.unformattedFiles s.changed.length)

theorem Summary.verify_eq_ok (s : Summary) : s.verify = .ok () ↔ s.changed = [] ∧ s.failures = 0 := by
  unfold verify check
  constructor
  · intro h
    split at h
    · rename_i hzero
      refine ⟨?_, hzero⟩
      by_contra hne
      have hempty : s.changed.isEmpty = false := by simpa using hne
      simp only [Except.bind, hempty, Bool.false_eq_true, if_false] at h
      cases h
    · cases h
  · rintro ⟨hchanged, hzero⟩
    rw [if_pos hzero, hchanged]
    rfl

theorem run_formatFiles {summary : Summary} (hrun : (runFiles paths true).run e = (.ok summary, after)) :
    (formatFiles paths).run e =
      (summary.check, { after with host := after.host.print (formattedLine summary.changed.length) }) := by
  unfold formatFiles
  rw [Work.run_bind, hrun]
  rfl

theorem run_listed (changed : List String) (e : Engine) :
    ∃ out, (changed.forM fun file => print (listedLine file)).run e =
      ((), { e with host := { e.host with out } }) ∧ out.toList = e.host.out.toList ++ changed.map listedLine := by
  induction changed generalizing e with
  | nil => exact ⟨e.host.out, rfl, (List.append_nil _).symm⟩
  | cons file changed ih =>
    obtain ⟨out, hrun, hout⟩ := ih { e with host := e.host.print (listedLine file) }
    refine ⟨out, hrun, ?_⟩
    rw [hout, Host.print, Array.toList_push, List.append_assoc]
    rfl

theorem run_checkFiles {summary : Summary} (hrun : (runFiles paths false).run e = (.ok summary, after)) :
    ∃ out, (checkFiles paths).run e = (summary.verify, { after with host := { after.host with out } }) ∧
      out.toList = after.host.out.toList ++ summary.changed.map listedLine := by
  obtain ⟨out, hlisted, hout⟩ := run_listed summary.changed after
  refine ⟨out, ?_, hout⟩
  have hforM : (summary.changed.forM fun file => do
      let mark := boldRed "from"
      print s!"{mark} {file}") = summary.changed.forM fun file => print (listedLine file) := rfl
  unfold checkFiles
  rw [Work.run_bind, hrun]
  dsimp only
  rw [hforM, Work.run_bind, hlisted]
  rfl

/-! ### Two requests -/

/-- How two requests for the same files come out, one that checks them and one that formats them, if both
come to the same summary. -/
structure Agree (h : Host) (summary : Summary) (check format : Except Fault Unit × Host) : Prop where
  unchanged : check.2.files = h.files
  listed : check.2.out.toList = h.out.toList ++ summary.changed.map listedLine
  counted : format.2.out.toList = h.out.toList ++ [formattedLine summary.changed.length]
  checked : check.1 = summary.verify
  formatted : format.1 = summary.check
  succeeds : check.1 = .ok () ↔ summary.changed = [] ∧ summary.failures = 0

/-- A request begins with an engine on which every file meets what it would meet alone. -/
theorem Apart.shared (ha : Apart h files) (request : Args.Request) :
    Shared s h files (fresh s (Settings.resolve h request).2) := by
  obtain ⟨err, hhost⟩ := resolve_host h request
  rw [hhost]
  exact (Shared.fresh ha).of_quiet rfl

theorem Apart.agree (ha : Apart h files) {request : Args.Request}
    (hsettings : (Settings.resolve h request).1 = .ok s) (hne : paths ≠ [])
    (hfiles : List.Forall₂ (fun path file => h.files.canonicalize h.directory (h.absolute path) = .ok file)
      paths files) :
    let summary := Summary.ofResults (files.map (verdict s h))
    let format := run h { request with action := .format paths }
    (∀ write, ((runFiles paths write).run (fresh s (Settings.resolve h request).2)).1 = .ok summary) ∧
      Agree h summary (run h { request with action := .check paths }) format ∧
      ∀ path, format.2.files.bytes? path = settled s h files true path := by
  obtain ⟨err, hhost⟩ := resolve_host h request
  have hshared := ha.shared (s := s) request
  have hstore : (fresh s (Settings.resolve h request).2).host.files = h.files := by
    rw [hhost]
    rfl
  have hfound : List.Forall₂ (fun path file => (fresh s (Settings.resolve h request).2).host.files.canonicalize
      (fresh s (Settings.resolve h request).2).host.directory
      ((fresh s (Settings.resolve h request).2).host.absolute path) = .ok file) paths files := by
    rw [hhost]
    exact hfiles
  have hcheck := run_act hsettings (.check paths) (by rintro text ⟨⟩)
  have hformat := run_act hsettings (.format paths) (by rintro text ⟨⟩)
  dsimp only at *
  rw [hcheck, hformat]
  generalize fresh s (Settings.resolve h request).2 = begun at *
  have hrun (write : Bool) := run_runFiles hne hfound write
  obtain ⟨hresults, hafter, -, hunwritten⟩ := hshared.run_all ha hstore false
  obtain ⟨hresults', hafter', hbytes, -⟩ := hshared.run_all ha hstore true
  have hchecked := hrun false
  have hformatted := hrun true
  dsimp only at *
  rw [hresults] at hchecked
  rw [hresults'] at hformatted
  obtain ⟨out, hactCheck, hout⟩ := run_checkFiles hchecked
  have hactFormat := run_formatFiles hformatted
  have hact (paths : List String) : act (.check paths) = checkFiles paths ∧ act (.format paths) = formatFiles paths :=
    ⟨rfl, rfl⟩
  rw [(hact paths).1, (hact paths).2, hactCheck, hactFormat]
  refine ⟨?_, ⟨?_, ?_, ?_, rfl, rfl, Summary.verify_eq_ok _⟩, hbytes⟩
  · intro write
    cases write with
    | false => rw [hchecked]
    | true => rw [hformatted]
  · exact hunwritten rfl
  · dsimp only
    rw [hout, hafter.out]
  · dsimp only [Host.print]
    rw [Array.toList_push, hafter'.out]

/-! ### Order -/

theorem Apart.perm (ha : Apart h files) {files' : List String} (hp : files'.Perm files) : Apart h files' where
  housed := ha.housed
  reads := ha.reads
  normal file hf := ha.normal file (hp.subset hf)
  nodup := hp.nodup_iff.mpr ha.nodup

theorem settled_perm {files' : List String} (hp : files'.Perm files) (path : String) :
    settled s h files' write path = settled s h files write path := by
  unfold settled
  simp only [hp.mem_iff]

theorem ofResults_perm {results results' : List FileResult} (hp : results'.Perm results) :
    (Summary.ofResults results').changed.Perm (Summary.ofResults results).changed ∧
      (Summary.ofResults results').failures = (Summary.ofResults results).failures :=
  ⟨hp.filterMap _, hp.countP_eq _⟩

/-- Where the answers of the tool depend on the calls and on the configuration files alone, checking files and
formatting them come to the same summary, and checking changes none of them.  In whatever order the files go on,
each comes out in the same way, and so it is if they are given in another order. -/
theorem run_check_agrees (h : Host) (request : Args.Request) (settings : Settings) (paths files : List String)
    (hsettings : (Settings.resolve h request).1 = .ok settings) (hne : paths ≠ [])
    (hfiles : List.Forall₂ (fun path file => h.files.canonicalize h.directory (h.absolute path) = .ok file) paths files)
    (hdistinct : files.Nodup) (hhoused : h.files.Housed)
    (htool : ∀ tool, h.tool = some tool → tool.ReadsConfigs) :
    let check := fun paths => run h { request with action := .check paths }
    let format := fun paths => run h { request with action := .format paths }
    let begun := fresh settings (Settings.resolve h request).2
    let summary := Summary.ofResults (files.map (verdict settings h))
    (∀ write, ((runFiles paths write).run begun).1 = .ok summary) ∧
    Agree h summary (check paths) (format paths) ∧
    (∀ write schedule,
      let ended := Round.run write ⟨jobsFrom 0 files, begun⟩ schedule
      ((∀ i, i < files.length → 6 ≤ schedule.count i) → ended.Ended) ∧
      (ended.Ended → ended.jobs.map (·.phase) = files.map (fun file => .ended (verdict settings h file)) ∧
        ∀ path, ended.engine.host.files.bytes? path =
          (if write then format paths else check paths).2.files.bytes? path)) ∧
    ∀ paths' : List String, paths'.Perm paths → ∃ changed, changed.Perm summary.changed ∧
      Agree h ⟨changed, summary.failures⟩ (check paths') (format paths') ∧
      ∀ path, (format paths').2.files.bytes? path = (format paths).2.files.bytes? path := by
  intro check format begun summary
  have ha : Apart h files := ⟨hhoused, htool, normal_of_found hfiles, hdistinct⟩
  obtain ⟨hruns, hagree, hbytes⟩ := ha.agree hsettings hne hfiles
  refine ⟨hruns, hagree, ?_, ?_⟩
  · intro write schedule
    refine ⟨Round.ended_of_count, fun hended => ?_⟩
    obtain ⟨err, hhost⟩ := resolve_host h request
    have hstore : begun.host.files = h.files := (congrArg Host.files hhost).trans rfl
    have hsteady := ((ha.shared request).steady hstore write).run ha schedule
    obtain ⟨hphases, hsettled⟩ := hsteady.ended ha hended
    refine ⟨hphases, fun path => (hsettled path).trans ?_⟩
    cases write with
    | true => exact (hbytes path).symm
    | false =>
      have hsame : (check paths).2.files = h.files := hagree.unchanged
      exact congrArg (FileStore.bytes? · path) hsame.symm
  · intro paths' hperm
    obtain ⟨files', hfiles', hfilesPerm⟩ := List.perm_comp_forall₂ hperm hfiles
    have hne' : paths' ≠ [] := by
      rintro rfl
      exact hne (List.nil_perm.mp hperm)
    obtain ⟨-, hagree', hbytes'⟩ := (ha.perm hfilesPerm).agree hsettings hne' hfiles'
    obtain ⟨hchanged, hfailures⟩ := ofResults_perm (hfilesPerm.map (verdict settings h))
    refine ⟨_, hchanged, ?_, ?_⟩
    · rw [← hfailures]
      exact hagree'
    · intro path
      exact (hbytes' path).trans ((settled_perm hfilesPerm path).trans (hbytes path).symm)

/-- One of two files would be changed and the other one fails, in both orders, and if the second one is always
ahead. -/
theorem run_check_agrees_picky :
    Agree pickyHost ⟨["/a.c"], 1⟩ (run pickyHost { action := .check ["/a.c", "b.c"] })
      (run pickyHost { action := .format ["/a.c", "b.c"] }) ∧
    (Round.run true ⟨jobsFrom 0 ["/a.c", "/b.c"], fresh {} pickyHost⟩
      [1, 0, 1, 0, 1, 0, 1, 0, 1, 0, 1, 0]).jobs.map (·.phase) = [.ended (.changed "/a.c"), .ended .failed] ∧
    ∃ changed, changed.Perm ["/a.c"] ∧ Agree pickyHost ⟨changed, 1⟩
      (run pickyHost { action := .check ["b.c", "/a.c"] }) (run pickyHost { action := .format ["b.c", "/a.c"] }) := by
  have hfound : List.Forall₂ (fun path file => pickyHost.files.canonicalize pickyHost.directory
      (pickyHost.absolute path) = .ok file) ["/a.c", "b.c"] ["/a.c", "/b.c"] :=
    .cons (by decide +kernel) (.cons (by decide +kernel) .nil)
  have hhoused : pickyHost.files.Housed := ((FileStore.housed_empty.write _ _).write _ _).write _ _
  have htool : ∀ tool, pickyHost.tool = some tool → tool.ReadsConfigs := by
    rintro tool ⟨⟩
    intro files other number number' c _
    rfl
  have hverdicts : ["/a.c", "/b.c"].map (verdict {} pickyHost) = [.changed "/a.c", .failed] := by decide +kernel
  obtain ⟨-, hagree, hschedules, hperm⟩ := run_check_agrees pickyHost { action := .version } {} ["/a.c", "b.c"]
    ["/a.c", "/b.c"] rfl (by decide) hfound (by decide) hhoused htool
  rw [hverdicts] at hagree hperm
  obtain ⟨hended, hphases⟩ := hschedules true [1, 0, 1, 0, 1, 0, 1, 0, 1, 0, 1, 0]
  obtain ⟨hphases, -⟩ := hphases (hended (by decide))
  have hmap : ["/a.c", "/b.c"].map (fun file => Phase.ended (verdict {} pickyHost file)) =
      (["/a.c", "/b.c"].map (verdict {} pickyHost)).map .ended := rfl
  rw [hmap, hverdicts] at hphases
  obtain ⟨changed, hchanged, hagree', -⟩ := hperm ["b.c", "/a.c"] (.swap _ _ _)
  exact ⟨hagree, hphases, changed, hchanged, hagree'⟩

end Restyle.Cli
