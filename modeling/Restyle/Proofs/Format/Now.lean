import Restyle.Proofs.Edit.Failure
import Restyle.Proofs.Edit.Splice
import Restyle.Proofs.Format.Answer

/-! # Formatting at once

A document that is formatted at once stays as it is unless the request ends as applied, with one
exception: replacements that are applied stay applied when a later one fails.
-/
namespace Restyle
open Work

/-- Replacements in order on boundaries of the text do not fail. -/
theorem not_inOrder_of_failure {b after : Buffer} {response : Response} {cause : ApplyError}
    (h : applyReplacements (Utf8.encode b.text) b response = (after, some cause)) :
    ¬Replacement.InOrder (Utf8.encode b.text) response.replacements := by
  intro hr
  obtain ⟨updates, hall⟩ := applyReplacements_eq (Utf8.encode b.text) b response
  rw [hall, applyAll_start hr] at h
  cases h

namespace Engine

/-- A document that is formatted at once stays as it is unless the request ends as applied, or fails because
a replacement that the tool answered with cannot be applied.  In that case the replacements of the answer do
not lie in order on boundaries of the text, and the document is left as those before the failing one make
it. -/
theorem formatNow_leaves (file : String) (b : Buffer) (t : Token) (e : Engine) :
    let formatted := (formatNow file b t).run e
    (∃ count, formatted.1.1 = .ok (.applied count)) ∨ formatted.1.2 = b ∨
    ∃ response done failing rest cause mid,
      e.host.Answered formatted.2.host.calls file (Utf8.encode b.text) response ∧
      ¬Replacement.InOrder (Utf8.encode b.text) response.replacements ∧
      response.replacements = done ++ failing :: rest ∧ cause.index = done.length ∧
      formatted.1.1 = .error (.decode (.unapplicable cause)) ∧
      applyReplacements (Utf8.encode b.text) b { response with replacements := done } = (mid, none) ∧
      formatted.1.2.units = mid.units ∧ formatted.1.2.stamp = b.stamp + done.length := by
  dsimp only
  unfold formatNow
  rw [Work.run_bind, Work.run_bind]
  have hstarted : callView (clearNotice.run e).2 = callView e := unlogged_callView.keeps_clearNotice e
  generalize (clearNotice.run e).2 = started at hstarted ⊢
  have hdelivers := prepare_delivers file (Utf8.encode b.text) b.stamp t started
  have hfor := prepare_preparedFor file (Utf8.encode b.text) b.stamp t started
  unfold Delivers at hdelivers
  generalize (prepare file (Utf8.encode b.text) b.stamp t).run started = prepared at hdelivers hfor ⊢
  obtain ⟨result, after⟩ := prepared
  rcases result with f | ⟨⟨source, stamp, response⟩⟩ | outcome
  · exact Or.inr (Or.inl rfl)
  · obtain ⟨rfl, rfl⟩ := hfor
    have hanswered := hdelivers _ rfl
    dsimp only at hanswered ⊢
    obtain ⟨lines, happly⟩ := run_apply file ⟨Utf8.encode b.text, b.stamp, response⟩ b after
    have hlogged := unlogged_callView.debugs lines after
    rw [Work.run_bind, Work.run_bind, happly]
    generalize { after with host := lines.foldl Host.debug after.host } = logged at hlogged ⊢
    rcases PreparedEdit.apply_cases ⟨Utf8.encode b.text, b.stamp, response⟩ b with
      ⟨outcome, -, hone⟩ | ⟨applied, -, -, -, hone⟩ | ⟨failed, cause, hfailure, hone⟩
    · rw [hone]
      exact Or.inr (Or.inl rfl)
    · rw [hone]
      exact Or.inl ⟨_, rfl⟩
    -- Only here a document is touched and no edit is applied.
    · rw [hone]
      have hreported := unlogged_callView.keeps_report file (.error (.decode (.unapplicable cause))) logged
      obtain ⟨done, failing, rest, mid, hlist, hindex, hdone, hunits, hstamp⟩ := applyReplacements_of_failure hfailure
      refine Or.inr (Or.inr ⟨response, done, failing, rest, cause, mid, ?_, ?_, hlist, hindex, rfl, hdone, hunits, ?_⟩)
      · obtain ⟨htool, hfiles, -, -⟩ := of_callView hstarted
        obtain ⟨-, -, hcalls, -⟩ := of_callView (hreported.trans hlogged)
        have hsame := hanswered.of_eq hfiles htool
        rw [← hcalls] at hsame
        exact hsame
      · exact not_inOrder_of_failure hfailure
      · have hall := (stamp_applyReplacements (Utf8.encode b.text) b { response with replacements := done }).2
        rw [hdone] at hall
        exact hstamp.trans (hall rfl)
  · exact Or.inr (Or.inl rfl)

/-- A tool whose second replacement lies behind every short text. -/
def farTool : Tool := fun _ _ call =>
  if call.invocation.args.contains "--dump-config" then { result := .ok ⟨0, Utf8.encode "{}\n", []⟩ }
  else { result := .ok ⟨0, Utf8.encode ("<replacements><replacement offset='0' length='0'>x</replacement>" ++
    "<replacement offset='9' length='0'/></replacements>"), []⟩ }

/-- A request fails, and its document has got the text of the first replacement and another stamp. -/
theorem formatNow_touches_on_failure :
    ((formatNow "/a.c" (Buffer.ofText "ab") 0).run { host := {
      files := ({} : FileStore).write "/_clang-format" []
      executables := [("clang-format", "/tool")]
      tool := some farTool } }).1 =
    (.error (.decode (.unapplicable (.offset 1 ⟨9, 0, ""⟩ (.outOfRange 9 2)))),
      { units := Utf16.encode "xab", stamp := 1 }) := by
  decide +kernel

end Engine
end Restyle
