import Restyle.Proofs.Format.Answer

/-! # The start and the end of a request

A request begins with the document as it is.  If it ends as applied, its document was changed by the whole
edit that was prepared for its snapshot.
-/
namespace Restyle
open Work

namespace Engine

/-- The start of a request changes nothing that a call depends on, and no document. -/
theorem start_cases (document : String) (t : Token) (e : Engine) :
    let begun := (start document t).run e
    begun.2.callView = e.callView ∧ (∀ name, begun.2.desk.document name = e.desk.document name) ∧
      begun.1 = (e.desk.start document t).1 := by
  obtain ⟨hticket, hdesk⟩ := start_eq document t e
  have hcleared : (clearNotice.run e).2.callView = e.callView := unlogged_callView.keeps_clearNotice e
  refine ⟨hcleared, ?_, hticket⟩
  intro name
  rw [hdesk]
  exact Desk.document_start e.desk document t name

def reported : Except Failure Outcome → Except Failure Outcome
  | .ok outcome => .ok outcome
  | .error .cancelled => .ok .cancelled
  | .error .notConfigured => .ok (.notApplicable .notConfigured)
  | .error (.unsupportedLanguage message) => .ok (.notApplicable (.unsupportedLanguage message))
  | .error f => .error f

theorem report_eq (file : String) (result : Except Failure Outcome) (e : Engine) :
    ((report file result).run e).1 = reported result := by
  unfold report reported
  rcases result with f | outcome
  · cases f <;> rfl
  · rfl

theorem conclude_applied {d : Desk} {t : Ticket} {result : Except Failure Prepared} {count : Nat}
    (hr : PreparedFor t.source t.stamp result) (h : (d.conclude t result).1 = .ok (.applied count)) :
    ∃ edit : PreparedEdit, result = .ok (.edit edit) ∧ edit.source = t.source ∧
      applyReplacements t.source (d.document t.document) edit.response =
        ((d.conclude t result).2.document t.document, none) := by
  rcases d.conclude_cases t result with ⟨-, hcancelled⟩ | ⟨edit, rfl, -, hone, hdocument⟩
  · rcases result with f | edit | outcome
    · cases h
    · rw [hcancelled edit rfl] at h
      cases h
    · obtain ⟨reason, rfl⟩ := hr
      cases h
  · refine ⟨edit, rfl, hr.1, ?_⟩
    rw [hdocument, if_pos rfl, ← hr.1]
    rw [hone] at h
    rcases edit.apply_cases (d.document t.document) with ⟨outcome, houtcome, he⟩ | ⟨after, -, -, hall, he⟩ | ⟨after, cause, -, he⟩
    · rw [he] at h
      rcases houtcome with rfl | rfl <;> cases h
    · rw [he]
      exact hall
    · rw [he] at h
      cases h

end Engine
end Restyle
