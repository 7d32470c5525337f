import Restyle.Proofs.Edit.Stamp
import Restyle.Proofs.Format.Work

/-! # Prepared edits and the snapshot

What is prepared for a snapshot carries the bytes and the stamp of that snapshot, and it is applied
only to a document that still has the stamp.  An edit that was applied has moved the stamp on.
-/
namespace Restyle

/-- What preparing may end with for a snapshot: an edit of that snapshot, a reason not to format, or a
failure. -/
def PreparedFor (source : List UInt8) (stamp : Nat) : Except Failure Prepared → Prop
  | .ok (.edit e) => e.source = source ∧ e.stamp = stamp
  | .ok (.done o) => ∃ reason, o = .notApplicable reason
  | .error _ => True

namespace Engine
open Work

theorem requestEdit_preparedFor (file : String) (source : List UInt8) (stamp : Nat) (t : Token) :
    Returns (requestEdit file source stamp t) (PreparedFor source stamp) := by
  unfold requestEdit
  refine Returns.bind fun _ => Returns.bind fun tool => ?_
  split
  · exact Returns.pure trivial
  refine Returns.bind fun command => Returns.bind fun _ => Returns.bind fun answer => ?_
  split
  · exact Returns.pure trivial
  split
  · exact Returns.pure trivial
  refine Returns.bind fun _ => ?_
  split
  · exact Returns.pure trivial
  dsimp only
  split
  · exact Returns.bind fun _ => Returns.pure ⟨rfl, rfl⟩
  · exact Returns.pure ⟨rfl, rfl⟩

/-- Whatever the tool answers, what is prepared belongs to the snapshot. -/
theorem prepare_preparedFor (file : String) (source : List UInt8) (stamp : Nat) (t : Token) :
    Returns (prepare file source stamp t) (PreparedFor source stamp) := by
  unfold prepare
  refine Returns.bind fun _ => Returns.bind fun reason => ?_
  split
  · exact Returns.pure trivial
  · exact Returns.bind fun _ => Returns.pure ⟨_, rfl⟩
  · exact requestEdit_preparedFor file source stamp t

end Engine

namespace PreparedEdit

theorem apply_of_stamp_ne {e : PreparedEdit} {b : Buffer} (h : b.stamp ≠ e.stamp) : e.apply b = (.ok .stale, b) := by
  rw [apply, if_pos h]

/-- An edit leaves a document as it is; or all its replacements are applied to a document with the stamp of
its snapshot; or one of them fails. -/
theorem apply_cases (e : PreparedEdit) (b : Buffer) :
    (∃ outcome, (outcome = .stale ∨ outcome = .noChanges) ∧ e.apply b = (.ok outcome, b)) ∨
    (∃ after, b.stamp = e.stamp ∧ 0 < e.response.size ∧ applyReplacements e.source b e.response = (after, none) ∧
      e.apply b = (.ok (.applied e.response.size), after)) ∨
    ∃ after cause, applyReplacements e.source b e.response = (after, some cause) ∧
      e.apply b = (.error (.decode (.unapplicable cause)), after) := by
  unfold apply
  split
  · exact Or.inl ⟨_, Or.inl rfl, rfl⟩
  rename_i hstamp
  split
  · exact Or.inl ⟨_, Or.inr rfl, rfl⟩
  rename_i hne
  have hpos : 0 < e.response.size := List.length_pos_iff.mpr fun hnil => hne (by rw [Response.isEmpty, hnil]; rfl)
  split
  · rename_i after h
    exact Or.inr (Or.inl ⟨after, Decidable.not_not.mp hstamp, hpos, h, rfl⟩)
  · rename_i after cause h
    exact Or.inr (Or.inr ⟨after, cause, h, rfl⟩)

theorem advances_apply (e : PreparedEdit) (b : Buffer) : b.Advances (e.apply b).2 := by
  have happly := (stamp_applyReplacements e.source b e.response).1
  rcases e.apply_cases b with ⟨outcome, -, he⟩ | ⟨after, -, -, hall, he⟩ | ⟨after, cause, hfailed, he⟩
  · rw [he]
    exact Buffer.Advances.refl b
  · rw [hall] at happly
    rw [he]
    exact happly
  · rw [hfailed] at happly
    rw [he]
    exact happly

/-- An edit that was applied met the document with the stamp of its snapshot, and moved the stamp on. -/
theorem stamp_lt_of_applied {e : PreparedEdit} {b : Buffer} {count : Nat} (h : (e.apply b).1 = .ok (.applied count)) :
    b.stamp = e.stamp ∧ b.stamp < (e.apply b).2.stamp := by
  rcases e.apply_cases b with ⟨outcome, houtcome, he⟩ | ⟨after, hstamp, hpos, hall, he⟩ | ⟨after, cause, -, he⟩
  · rw [he] at h
    rcases houtcome with rfl | rfl <;> cases h
  · have happly := (stamp_applyReplacements e.source b e.response).2
    rw [hall] at happly
    have hafter : after.stamp = b.stamp + e.response.size := happly rfl
    rw [he]
    refine ⟨hstamp, ?_⟩
    change b.stamp < after.stamp
    omega
  · rw [he] at h
    cases h

end PreparedEdit
end Restyle
