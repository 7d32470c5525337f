import Restyle.Edit.Apply

/-! # Stamps tell contents apart

Every mutation of a document moves its stamp on, so a document that still has a stamp still has the
content it had then.  This also holds where a list of replacements fails on the way.
-/
namespace Restyle

namespace Buffer

def Advances (b after : Buffer) : Prop :=
  (after.units = b.units ∧ after.stamp = b.stamp) ∨ b.stamp < after.stamp

theorem Advances.refl (b : Buffer) : b.Advances b := Or.inl ⟨rfl, rfl⟩

theorem Advances.stamp_le {b after : Buffer} (h : b.Advances after) : b.stamp ≤ after.stamp := by
  rcases h with ⟨-, hs⟩ | hs
  · exact Nat.le_of_eq hs.symm
  · exact Nat.le_of_lt hs

theorem Advances.units_eq {b after : Buffer} (h : b.Advances after) (hs : after.stamp = b.stamp) :
    after.units = b.units := by
  rcases h with ⟨hu, -⟩ | hlt
  · exact hu
  · omega

theorem Advances.trans {b mid after : Buffer} (h : b.Advances mid) (h' : mid.Advances after) :
    b.Advances after := by
  have hle := h'.stamp_le
  rcases h with ⟨hu, hs⟩ | hlt
  · rcases h' with ⟨hu', hs'⟩ | hlt'
    · exact Or.inl ⟨hu'.trans hu, hs'.trans hs⟩
    · exact Or.inr (hs ▸ hlt')
  · exact Or.inr (Nat.lt_of_lt_of_le hlt hle)

theorem advances_setText (b : Buffer) (text : String) : b.Advances (b.setText text) :=
  Or.inr (Nat.lt_succ_self b.stamp)

theorem stamp_replaceRange {b after : Buffer} {start stop : Nat} {text : String}
    (h : b.replaceRange start stop text = .ok after) : after.stamp = b.stamp + 1 := by
  unfold replaceRange at h
  split at h
  · cases h
  · cases h
    rfl

end Buffer

theorem stamp_applyOne {index : Nat} {cursor last : Cursor} {growth grown : Int} {b after : Buffer}
    {r : Replacement} (h : applyOne index cursor growth b r = .ok (last, grown, after)) :
    after.stamp = b.stamp + 1 := by
  simp only [applyOne, bind, Except.bind] at h
  split at h
  · cases h
  split at h
  · cases h
  split at h
  · cases h
  split at h
  · cases h
  · rename_i hr
    cases h
    unfold Except.mapError at hr
    split at hr
    · cases hr
    · rename_i he
      cases hr
      exact Buffer.stamp_replaceRange he

/-- The document advances with each replacement, and by the number of replacements if none fails. -/
theorem stamp_applyAll (index : Nat) (cursor : Cursor) (growth : Int) (b : Buffer) (rs : List Replacement) :
    b.Advances (applyAll index cursor growth b rs).1 ∧
      ((applyAll index cursor growth b rs).2 = none →
        (applyAll index cursor growth b rs).1.stamp = b.stamp + rs.length) := by
  induction rs generalizing index cursor growth b with
  | nil => exact ⟨Buffer.Advances.refl b, fun _ => rfl⟩
  | cons r rest ih =>
    rw [applyAll]
    split
    · exact ⟨Buffer.Advances.refl b, fun h => by cases h⟩
    · rename_i after hone
      have hs := stamp_applyOne hone
      obtain ⟨hadv, hall⟩ := ih (index + 1) _ _ after
      refine ⟨Buffer.Advances.trans (Or.inr (by omega)) hadv, fun h => ?_⟩
      rw [hall h, hs, List.length_cons, Nat.add_right_comm, Nat.add_assoc]

theorem stamp_applyReplacements (source : List UInt8) (b : Buffer) (response : Response) :
    b.Advances (applyReplacements source b response).1 ∧
      ((applyReplacements source b response).2 = none →
        (applyReplacements source b response).1.stamp = b.stamp + response.size) := by
  unfold applyReplacements
  split
  · exact stamp_applyAll 0 (.start source) 0 b.beginBulk response.replacements
  · exact stamp_applyAll 0 (.start source) 0 b response.replacements

end Restyle
