import Mathlib.Data.List.Nodup
import Restyle.Cli.Run
import Restyle.Proofs.File.Store
import Restyle.Proofs.Format.Finish
import Restyle.Proofs.Text.Utf16

/-! # Files of a request

How a file is begun, how the files of a request are found, and what a summary of their results says.
-/
namespace Restyle
open Restyle.Path

namespace Cli
open Engine

/-! ### One file -/

/-- A file that was begun: its document holds the text of the file, and so does the snapshot. -/
def Begun (e : Engine) (file : String) (ticket : Ticket) : Prop :=
  ∃ text, e.host.files.read file = .ok text ∧ ticket.source = Utf8.encode text ∧
    e.desk.document ticket.document = Buffer.ofText text

/-- A file that can be read is begun as a document of its own. -/
theorem startFile_cases (file name : String) (e : Engine) :
    let begun := (startFile file name).run e
    begun.2.callView = e.callView ∧ (∀ other, other ≠ name → begun.2.desk.document other = e.desk.document other) ∧
    ∀ ticket, begun.1 = some ticket → ticket.document = name ∧ Begun begun.2 file ticket := by
  unfold startFile
  rw [Work.run_bind]
  dsimp only
  split
  · rename_i fault hread
    refine ⟨?_, fun _ _ => rfl, ?_⟩
    · exact unlogged_callView.error e _
    · intro ticket h
      cases h
  · rename_i text hread
    have hread : e.host.files.read file = .ok text := hread
    let ready : Engine := { e with
      desk := ((e.desk.newToken false).2).setDocument name (Buffer.ofText text) }
    have hready (other : String) : ready.desk.document other =
        if other = name then Buffer.ofText text else e.desk.document other :=
      Desk.document_setDocument (e.desk.newToken false).2 name _ other
    obtain ⟨hview, hdocuments, hticket⟩ := start_cases name (e.desk.newToken false).1 ready
    refine ⟨hview, ?_, ?_⟩
    · intro other hne
      refine (hdocuments other).trans ?_
      rw [hready, if_neg hne]
    · intro ticket h
      have hticket := hticket.symm.trans (Option.some.inj h)
      subst hticket
      have hshown : ready.desk.document name = Buffer.ofText text := (hready name).trans (if_pos rfl)
      refine ⟨rfl, text, ?_, ?_, (hdocuments name).trans hshown⟩
      · obtain ⟨-, hfiles, -, -⟩ := of_callView hview
        exact (congrArg (FileStore.read · file) hfiles).trans hread
      · rw [Desk.source_start, hshown, Buffer.text, Buffer.ofText, Utf16.toText_encode]

/-! ### Files that were found -/

def stored (file : String) : Key := key (normalize file)

theorem resolveAll_eq {paths files : List String} {e : Engine}
    (h : List.Forall₂ (fun path file => e.host.files.canonicalize e.host.directory (e.host.absolute path) = .ok file)
      paths files) : (resolveAll paths).run e = (.ok files, e) := by
  induction h with
  | nil => rfl
  | @cons path file paths files hfound hrest ih =>
    unfold resolveAll
    rw [Work.run_bind]
    dsimp only
    split
    · rename_i fault hfault
      have hfault : e.host.files.canonicalize e.host.directory (e.host.absolute path) = .error fault := hfault
      rw [hfound] at hfault
      cases hfault
    · rename_i other hother
      have hother : e.host.files.canonicalize e.host.directory (e.host.absolute path) = .ok other := hother
      rw [hfound] at hother
      cases hother
      have hget : ((get : Work Engine).run e).2 = e := rfl
      rw [Work.run_bind, hget, ih]
      rfl

theorem run_runFiles {paths files : List String} {e : Engine} (hne : paths ≠ [])
    (h : List.Forall₂ (fun path file => e.host.files.canonicalize e.host.directory (e.host.absolute path) = .ok file)
      paths files) (write : Bool) :
    let finished := (startAll 0 files >>= finishAll write).run e
    (runFiles paths write).run e = (.ok (.ofResults finished.1), finished.2) := by
  intro finished
  unfold runFiles
  cases paths with
  | nil => exact absurd rfl hne
  | cons path paths =>
    rw [List.isEmpty_cons, if_neg Bool.false_ne_true, Work.run_bind, resolveAll_eq h]
    rfl

theorem normal_of_found {paths files : List String} {h : Host}
    (hfiles : List.Forall₂ (fun path file => h.files.canonicalize h.directory (h.absolute path) = .ok file)
      paths files) : ∀ file ∈ files, ∃ path, file = normalize path := by
  induction hfiles with
  | nil =>
    intro file hmem
    cases hmem
  | cons hfound hrest ih =>
    intro file hmem
    rcases List.mem_cons.mp hmem with rfl | hmem
    · exact FileStore.exists_normalize_of_canonicalize hfound
    · exact ih file hmem

/-- Files are stored under different keys if their paths are normal and differ. -/
theorem stored_nodup {files : List String} (hnormal : ∀ file ∈ files, ∃ path, file = normalize path)
    (hdistinct : files.Nodup) : (files.map stored).Nodup := by
  refine List.Nodup.map_on ?_ hdistinct
  intro file hfile other hother heq
  obtain ⟨path, rfl⟩ := hnormal file hfile
  obtain ⟨path', rfl⟩ := hnormal other hother
  exact normalize_eq_of_key_eq heq

theorem resolve_host (h : Host) (request : Args.Request) :
    ∃ err, (Settings.resolve h request).2 = { h with err } := by
  unfold Settings.resolve
  split
  · exact ⟨h.err, rfl⟩
  · exact h.debug_eq _

theorem check_ofResults (results : List FileResult) : (Summary.ofResults results).check =
    if .failed ∈ results then .error (.failedFiles (results.countP (· = .failed))) else .ok () := by
  have hzero : results.countP (· = .failed) = 0 ↔ .failed ∉ results := by
    rw [List.countP_eq_zero]
    constructor
    · intro h hmem
      exact h _ hmem (decide_eq_true rfl)
    · intro h result hmem hr
      exact h (of_decide_eq_true hr ▸ hmem)
  unfold Summary.check
  by_cases h : .failed ∈ results
  · rw [if_pos h]
    exact if_neg fun h0 => hzero.mp h0 h
  · rw [if_neg h]
    exact if_pos (hzero.mpr h)

/-- A tool that puts a letter in front of one text and fails on all others. -/
def pickyTool : Tool := fun _ _ call =>
  if call.invocation.args.contains "--dump-config" then { result := .ok ⟨0, Utf8.encode "{}\n", []⟩ }
  else if call.input = some (Utf8.encode "ab") then { result := .ok ⟨0, Utf8.encode
    "<replacements><replacement offset='0' length='0'>x</replacement></replacements>", []⟩ }
  else { result := .ok ⟨1, [], []⟩ }

/-- A host with that tool and two files. -/
def pickyHost : Host where
  files := ((({} : FileStore).write "/_clang-format" []).write "/a.c" (Utf8.encode "ab")).write "/b.c" []
  executables := [("clang-format", "/tool")]
  tool := some pickyTool

end Cli
end Restyle
