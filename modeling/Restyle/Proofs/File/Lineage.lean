import Mathlib.Data.List.Chain
import Restyle.Proofs.File.Store

/-! # Stores one after another

A file that has the same stamp in two stores was left alone in between, as long as no stamp is given twice.
Writes, removals and renames give none twice.
-/
namespace Restyle
namespace FileStore
open Restyle.Path

/-- Whether each file of a later store was in the store before it, or has a stamp that no file had so far.  The
stores so far are listed with the latest first. -/
def NeverReused : List FileStore → List FileStore → Prop
  | _, [] => True
  | past, s :: rest =>
    (∀ k f, s.find? k = some f → (∃ last ∈ past.head?, last.find? k = some f) ∨
      ∀ old ∈ past, ∀ k' g, old.find? k' = some g → g.stamp ≠ f.stamp) ∧
    NeverReused (s :: past) rest

/-- A file of the last store whose stamp was given before was there all the time. -/
theorem NeverReused.find?_eq {last : FileStore} {past rest : List FileStore} (h : NeverReused (last :: past) rest)
    {k : Key} {f : StoredFile} (hold : ∃ old ∈ last :: past, ∃ k' g, old.find? k' = some g ∧ g.stamp = f.stamp)
    (hend : (rest.getLastD last).find? k = some f) : ∀ s ∈ last :: rest, s.find? k = some f := by
  induction rest generalizing last past with
  | nil => simpa using hend
  | cons next rest ih =>
    obtain ⟨hfirst, hrest⟩ := h
    obtain ⟨old, hmem, k', g, hg, hstamp⟩ := hold
    rw [List.getLastD_cons] at hend
    have hlater := ih hrest ⟨old, List.mem_cons_of_mem _ hmem, k', g, hg, hstamp⟩ hend
    have hlast : last.find? k = some f := by
      rcases hfirst k f (hlater next List.mem_cons_self) with ⟨before, hbefore, hsame⟩ | hfresh
      · obtain rfl : last = before := by simpa using hbefore
        exact hsame
      · exact absurd hstamp (hfresh old hmem k' g hg)
    intro s hs
    rcases List.mem_cons.mp hs with rfl | hs
    · exact hlast
    · exact hlater s hs

/-- A path with a stamp that it has in the end, too, was left alone. -/
theorem NeverReused.get?_eq {first : FileStore} {rest : List FileStore} (h : NeverReused [first] rest) {path : String}
    {stamp : Nat} (hfirst : first.stamp? path = some stamp) (hend : (rest.getLastD first).stamp? path = some stamp) :
    ∀ s ∈ rest, s.get? path = first.get? path := by
  obtain ⟨f, hf, rfl⟩ := Option.map_eq_some_iff.mp hfirst
  obtain ⟨f', hf', hstamp⟩ := Option.map_eq_some_iff.mp hend
  have hall := h.find?_eq ⟨first, List.mem_cons_self, _, f, hf, hstamp.symm⟩ hf'
  intro s hs
  exact (hall s (List.mem_cons_of_mem _ hs)).trans (hall first List.mem_cons_self).symm

/-! ### Writes, removals and renames -/

structure Succeeds (s after : FileStore) : Prop where
  nextStamp : s.nextStamp ≤ after.nextStamp
  files : ∀ k f, after.find? k = some f → s.find? k = some f ∨ s.nextStamp ≤ f.stamp ∧ f.stamp < after.nextStamp

theorem succeeds_write (s : FileStore) (path : String) (bytes : List UInt8) : s.Succeeds (s.write path bytes) := by
  have hnext : (s.write path bytes).nextStamp = s.nextStamp + 1 := rfl
  refine ⟨by omega, fun k f hf => ?_⟩
  rw [find?_write] at hf
  split at hf
  · cases hf
    exact .inr ⟨Nat.le_refl _, Nat.lt_of_lt_of_eq (Nat.lt_succ_self _) hnext.symm⟩
  · exact .inl hf

theorem succeeds_remove (s : FileStore) (path : String) : s.Succeeds (s.remove path) := by
  unfold remove
  dsimp only
  split
  · refine ⟨Nat.le_refl _, fun k f hf => .inl ?_⟩
    have hfilter := find?_filter_ne s.files (key path) k
    unfold find? at hf ⊢
    rw [hfilter] at hf
    split at hf
    · cases hf
    · exact hf
  · exact ⟨Nat.le_refl _, fun _ _ hf => .inl hf⟩

theorem succeeds_rename (s : FileStore) (source target : String) : s.Succeeds (s.rename source target) := by
  unfold rename
  dsimp only
  split
  · exact ⟨Nat.le_refl _, fun _ _ hf => .inl hf⟩
  · rename_i moved _
    refine ⟨Nat.le_succ _, fun k f hf => ?_⟩
    have hput := find?_put (({ s with files := s.files.filter (·.path ≠ key source) }).addParents target)
      ⟨key target, moved.bytes, s.nextStamp⟩ k
    have hfilter := find?_filter_ne s.files (key source) k
    rw [find?_addParents] at hput
    replace hf := hput.symm.trans hf
    split at hf
    · cases hf
      exact .inr ⟨Nat.le_refl _, Nat.lt_succ_self _⟩
    · left
      unfold find? at hf ⊢
      rw [hfilter] at hf
      split at hf
      · cases hf
      · exact hf

/-- Stores that come out of one another give no stamp twice. -/
theorem neverReused_of_isChain {last : FileStore} {past rest : List FileStore}
    (hpast : ∀ old ∈ last :: past, ∀ k f, old.find? k = some f → f.stamp < last.nextStamp)
    (h : (last :: rest).IsChain Succeeds) : NeverReused (last :: past) rest := by
  induction rest generalizing last past with
  | nil => trivial
  | cons next rest ih =>
    obtain ⟨hnext, hrest⟩ := List.isChain_cons_cons.mp h
    refine ⟨fun k f hf => ?_, ih ?_ hrest⟩
    · rcases hnext.files k f hf with hsame | ⟨hle, -⟩
      · exact .inl ⟨last, rfl, hsame⟩
      · refine .inr fun old hold k' g hg => ?_
        have := hpast old hold k' g hg
        omega
    · intro old hold k f hf
      rcases List.mem_cons.mp hold with rfl | hold
      · rcases hnext.files k f hf with hsame | ⟨-, hlt⟩
        · have := hpast last List.mem_cons_self k f hsame
          have := hnext.nextStamp
          omega
        · exact hlt
      · have := hpast old hold k f hf
        have := hnext.nextStamp
        omega

end FileStore
end Restyle
