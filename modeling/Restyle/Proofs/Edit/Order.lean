import Mathlib.Data.List.Chain
import Restyle.Edit.Replacement
import Restyle.Proofs.Text.Utf8

/-! # Replacements in order

A list of replacements is applied from the front to the back of its source, so each one must start
where the one before it ends, or behind.
-/
namespace Restyle.Replacement

/-- A replacement ends where the next one starts, or before. -/
def EndsBefore (r next : Replacement) : Prop := r.offset + r.length ≤ next.offset

instance (r next : Replacement) : Decidable (EndsBefore r next) :=
  inferInstanceAs (Decidable (r.offset + r.length ≤ next.offset))

/-- Replacements of a source in order: each has an offset of 64 bits, starts and ends on a boundary of
the source, and starts where the one before it ends, or behind. -/
structure InOrder (source : List UInt8) (rs : List Replacement) : Prop where
  word : ∀ r ∈ rs, r.offset ≤ maxWord
  boundary : ∀ r ∈ rs, Utf8.IsBoundary source r.offset ∧ Utf8.IsBoundary source r.stop
  chain : rs.IsChain EndsBefore

theorem size_nil_le_offset (rs : List Replacement) : ∀ r ∈ rs.head?, Utf8.size [] ≤ r.offset := by
  intro r _
  exact Nat.zero_le r.offset

theorem offset_le_stop {r : Replacement} (h : r.offset ≤ maxWord) : r.offset ≤ r.stop :=
  Nat.le_min.mpr ⟨Nat.le_add_right _ _, h⟩

theorem stop_eq {r : Replacement} (h : r.offset + r.length ≤ maxWord) : r.stop = r.offset + r.length :=
  Nat.min_eq_left h

theorem InOrder.tail {source : List UInt8} {r : Replacement} {rs : List Replacement}
    (h : InOrder source (r :: rs)) : InOrder source rs ∧ ∀ next ∈ rs.head?, r.stop ≤ next.offset := by
  have hrest : InOrder source rs := by
    constructor
    · intro x hx
      exact h.word x (List.mem_cons_of_mem _ hx)
    · intro x hx
      exact h.boundary x (List.mem_cons_of_mem _ hx)
    · exact h.chain.tail
  refine ⟨hrest, ?_⟩
  intro next hn
  obtain ⟨rest, rfl⟩ := List.head?_eq_some_iff.mp hn
  have hends := (List.isChain_cons_cons.mp h.chain).1
  exact Nat.le_trans (Nat.min_le_left _ _) hends

/-- The first of some replacements behind a cut of the text leaves a gap and hits what follows it. -/
theorem InOrder.exists_gap {cs front back : List Char} {r : Replacement} {rs : List Replacement}
    (h : InOrder (cs.flatMap String.utf8EncodeChar) (r :: rs)) (hc : cs = front ++ back)
    (hle : Utf8.size front ≤ r.offset) :
    ∃ gap hit rest, back = gap ++ (hit ++ rest) ∧ r.offset = Utf8.size (front ++ gap) ∧
      r.stop = Utf8.size (front ++ gap ++ hit) := by
  obtain ⟨ho, hs⟩ := h.boundary r List.mem_cons_self
  rw [hc] at ho hs
  obtain ⟨gap, after, rfl, hg⟩ := ho.exists_cut_after hle
  have hstop := offset_le_stop (h.word r List.mem_cons_self)
  rw [← List.append_assoc] at hs
  obtain ⟨hit, rest, rfl, hh⟩ := hs.exists_cut_after (by omega)
  exact ⟨gap, hit, rest, rfl, hg, hh⟩

end Restyle.Replacement
