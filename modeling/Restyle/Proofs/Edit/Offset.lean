import Restyle.Edit.Offset
import Restyle.Proofs.Text.Utf8

/-! # Cursors between characters

Over the bytes of a text a cursor that goes from boundary to boundary always stands between two
characters, and its place in units is the number of units of the characters behind it.
-/
namespace Restyle.Cursor

/-- The cursor over a text that stands behind `front` and before `back`. -/
def between (front back : List Char) : Cursor :=
  ⟨Utf8.size front, Utf16.width front, back.flatMap String.utf8EncodeChar, Utf8.size (front ++ back)⟩

theorem start_flatMap (cs : List Char) : start (cs.flatMap String.utf8EncodeChar) = between [] cs := rfl

theorem scan_of_le {target byte : Nat} (h : target ≤ byte) (wide : Nat) (bs : List UInt8) :
    scan target byte wide bs = (byte, wide, bs) := by
  cases bs with
  | nil => rw [scan]
  | cons b bs => rw [scan, if_neg (Nat.not_lt.mpr h)]

/-- A scan takes whole characters. -/
theorem scan_flatMap (cs : List Char) (byte wide : Nat) (rest : List UInt8) :
    scan (byte + Utf8.size cs) byte wide (cs.flatMap String.utf8EncodeChar ++ rest) =
      (byte + Utf8.size cs, wide + Utf16.width cs, rest) := by
  induction cs generalizing byte wide with
  | nil => exact scan_of_le (Nat.le_refl _) wide rest
  | cons c cs ih =>
    obtain ⟨b, bs, hc, hs, -⟩ := Utf8.utf8EncodeChar_shape c
    have hn : byte + Utf8.size (c :: cs) = byte + (bs.length + 1) + Utf8.size cs := by
      rw [Utf8.size_cons, hc, List.length_cons, Nat.add_assoc byte]
    rw [List.flatMap_cons, hc, List.cons_append, List.cons_append, scan, if_pos (by omega), hs]
    simp only [Nat.add_sub_cancel, List.append_assoc, List.drop_left]
    rw [hn, ih, Utf16.width_cons, Nat.add_assoc wide]

/-- A scan to any place takes whole characters, too, where the place lies inside a character. -/
theorem exists_scan_flatMap (target : Nat) (cs : List Char) (byte wide : Nat) :
    ∃ gap back, cs = gap ++ back ∧ scan target byte wide (cs.flatMap String.utf8EncodeChar) =
      (byte + Utf8.size gap, wide + Utf16.width gap, back.flatMap String.utf8EncodeChar) := by
  induction cs generalizing byte wide with
  | nil => exact ⟨[], [], rfl, by rw [List.flatMap_nil, scan]; rfl⟩
  | cons c cs ih =>
    by_cases h : byte < target
    · obtain ⟨b, bs, hc, hs, -⟩ := Utf8.utf8EncodeChar_shape c
      obtain ⟨gap, back, rfl, hscan⟩ := ih (byte + (bs.length + 1)) (wide + (Utf16.ofChar c).length)
      refine ⟨c :: gap, back, rfl, ?_⟩
      rw [List.flatMap_cons, hc, List.cons_append, scan, if_pos h, hs]
      simp only [Nat.add_sub_cancel, List.drop_left]
      rw [hscan, Utf8.size_cons, Utf16.width_cons, hc, List.length_cons, Nat.add_assoc byte, Nat.add_assoc wide]
    · exact ⟨[], c :: cs, rfl, scan_of_le (Nat.not_lt.mp h) wide _⟩

theorem seek_between (front gap back : List Char) :
    (between front (gap ++ back)).seek (Utf8.size (front ++ gap)) =
      .ok (Utf16.width (front ++ gap), between (front ++ gap) back) := by
  have hr : ¬Utf8.size (front ++ gap) < Utf8.size front := by
    rw [Utf8.size_append]
    omega
  have ho : ¬Utf8.size (front ++ (gap ++ back)) < Utf8.size (front ++ gap) := by
    simp only [Utf8.size_append]
    omega
  simp only [seek, between, if_neg hr, if_neg ho, List.flatMap_append]
  rw [Utf8.size_append front gap, scan_flatMap, Utf16.width_append, List.append_assoc]

/-! ### Requests that are granted -/

theorem wide_le_scan (target byte wide : Nat) (bs : List UInt8) : wide ≤ (scan target byte wide bs).2.1 := by
  fun_induction scan target byte wide bs with
  | case1 => exact Nat.le_refl _
  | case2 byte wide b bs h size ih => exact Nat.le_trans (Nat.le_add_right wide size.2) ih
  | case3 => exact Nat.le_refl _

/-- The answer is where the cursor stands then, and it is not less than before. -/
theorem wide_of_seek {c last : Cursor} {target wide : Nat} (h : c.seek target = .ok (wide, last)) :
    last.wide = wide ∧ c.wide ≤ last.wide := by
  unfold seek at h
  split at h
  · cases h
  split at h
  · cases h
  cases h
  exact ⟨rfl, wide_le_scan target c.byte c.wide c.ahead⟩

/-- The cursor stands between two characters of a text, or at one of its ends. -/
def StandsIn (c : Cursor) (cs : List Char) : Prop := ∃ front back, cs = front ++ back ∧ c = between front back

theorem StandsIn.wide_le {c : Cursor} {cs : List Char} (h : c.StandsIn cs) : c.wide ≤ Utf16.width cs := by
  obtain ⟨front, back, rfl, rfl⟩ := h
  simp [between]

theorem StandsIn.seek {c last : Cursor} {cs : List Char} {target wide : Nat} (h : c.StandsIn cs)
    (hseek : c.seek target = .ok (wide, last)) : last.StandsIn cs := by
  obtain ⟨front, back, rfl, rfl⟩ := h
  unfold Cursor.seek at hseek
  split at hseek
  · cases hseek
  split at hseek
  · cases hseek
  obtain ⟨gap, rest, rfl, hscan⟩ := exists_scan_flatMap target back (Utf8.size front) (Utf16.width front)
  simp only [between, hscan] at hseek
  cases hseek
  exact ⟨front ++ gap, rest, by simp, by simp [between]⟩

end Restyle.Cursor
