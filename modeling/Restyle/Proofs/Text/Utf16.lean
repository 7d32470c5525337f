import Restyle.Text.Utf16

/-! # Units and the characters they show

Decoding loses no unit: every character that a sequence of units shows has as many units of its own
as were read for it, also where a lone surrogate shows as U+FFFD.  So a sequence can be cut at each
character that it shows, and the units of a text show that text.
-/
namespace Restyle.Utf16

def width (cs : List Char) : Nat := (cs.flatMap ofChar).length

@[simp] theorem width_nil : width [] = 0 := rfl

@[simp] theorem width_cons (c : Char) (cs : List Char) :
    width (c :: cs) = (ofChar c).length + width cs := by
  simp [width]

@[simp] theorem width_append (cs ds : List Char) : width (cs ++ ds) = width cs + width ds := by
  simp [width]

theorem encode_ofList (cs : List Char) : encode (String.ofList cs) = cs.flatMap ofChar := by
  simp [encode]

theorem length_ofChar (c : Char) : (ofChar c).length = if c.toNat < 0x10000 then 1 else 2 := by
  unfold ofChar
  split <;> rfl

theorem isHigh_iff (u : UInt16) : isHigh u = true ↔ 0xD800 ≤ u.toNat ∧ u.toNat ≤ 0xDBFF := by
  simp [isHigh, UInt16.le_iff_toNat_le]

theorem isLow_iff (u : UInt16) : isLow u = true ↔ 0xDC00 ≤ u.toNat ∧ u.toNat ≤ 0xDFFF := by
  simp [isLow, UInt16.le_iff_toNat_le]

/-- The character that a unit shows when it is read alone. -/
def shown (u : UInt16) : Char := if isHigh u || isLow u then '\uFFFD' else Char.ofNat u.toNat

theorem toNat_ofNat {n : Nat} (h : n.isValidChar) : (Char.ofNat n).toNat = n := by
  rw [Char.ofNat, dif_pos h]
  rfl

theorem toNat_ofNat_le (n : Nat) : (Char.ofNat n).toNat ≤ n := by
  by_cases h : n.isValidChar
  · exact Nat.le_of_eq (toNat_ofNat h)
  · rw [Char.ofNat, dif_neg h]
    exact Nat.zero_le n

theorem length_ofChar_shown (u : UInt16) : (ofChar (shown u)).length = 1 := by
  have hu := u.toNat_lt
  have hs : (shown u).toNat ≤ 0xFFFF := by
    unfold shown
    split
    · decide
    · exact Nat.le_trans (toNat_ofNat_le _) (by omega)
  rw [length_ofChar, if_pos (by omega)]

theorem toNat_pair {high low : UInt16} (hh : isHigh high = true) (hl : isLow low = true) :
    (pair high low).toNat = 0x10000 + (high.toNat - 0xD800) * 0x400 + (low.toNat - 0xDC00) := by
  rw [isHigh_iff] at hh
  rw [isLow_iff] at hl
  have hv : (0x10000 + (high.toNat - 0xD800) * 0x400 + (low.toNat - 0xDC00)).isValidChar := by
    right
    omega
  exact toNat_ofNat hv

theorem length_ofChar_pair {high low : UInt16} (hh : isHigh high = true) (hl : isLow low = true) :
    (ofChar (pair high low)).length = 2 := by
  have hp := toNat_pair hh hl
  rw [length_ofChar, if_neg (by omega)]

theorem decode_pair {high low : UInt16} (hh : isHigh high = true) (hl : isLow low = true)
    (rest : List UInt16) : decode (high :: low :: rest) = pair high low :: decode rest := by
  simp [decode, hh, hl]

theorem decode_single {u : UInt16} {us : List UInt16}
    (h : ∀ v ∈ us.head?, ¬(isHigh u = true ∧ isLow v = true)) :
    decode (u :: us) = shown u :: decode us := by
  cases us with
  | nil => rfl
  | cons v rest =>
    have hv : isHigh u = true → ¬isLow v = true := fun hh hl => h v rfl ⟨hh, hl⟩
    by_cases hh : isHigh u = true
    · simp [decode, shown, hh, hv hh]
    · by_cases hl : isLow u = true <;> simp [decode, shown, hh, hl]

/-- The first units of a sequence are a surrogate pair, or the first one is read alone, whatever part
of the others follows. -/
theorem pair_or_single (u : UInt16) (us : List UInt16) :
    (∃ v rest, us = v :: rest ∧ isHigh u = true ∧ isLow v = true) ∨
    ∀ n, decode (u :: us.take n) = shown u :: decode (us.take n) := by
  by_cases hp : ∃ v rest, us = v :: rest ∧ isHigh u = true ∧ isLow v = true
  · exact Or.inl hp
  · refine Or.inr fun n => decode_single ?_
    rintro v hv ⟨hh, hl⟩
    rw [List.head?_take] at hv
    split at hv
    · cases hv
    · obtain ⟨rest, hr⟩ := List.head?_eq_some_iff.mp hv
      exact hp ⟨v, rest, hr, hh, hl⟩

/-- A sequence can be cut in front of each character that it shows. -/
theorem decode_cut {units : List UInt16} {cs ds : List Char} (h : decode units = cs ++ ds) :
    decode (units.take (width cs)) = cs ∧ decode (units.drop (width cs)) = ds := by
  induction cs generalizing units with
  | nil => exact ⟨by simp [decode], by simpa using h⟩
  | cons c cs ih =>
    cases units with
    | nil => simp [decode] at h
    | cons u us =>
      -- Taking fewer units must not make a pair of what was read alone, nor take a pair apart.
      rcases pair_or_single u us with ⟨v, rest, rfl, hh, hl⟩ | hs
      · rw [decode_pair hh hl, List.cons_append, List.cons.injEq] at h
        obtain ⟨rfl, h⟩ := h
        obtain ⟨hf, hb⟩ := ih h
        rw [width_cons, length_ofChar_pair hh hl, Nat.add_comm 2]
        exact ⟨by rw [List.take_succ_cons, List.take_succ_cons, decode_pair hh hl, hf], hb⟩
      · have hall := hs us.length
        rw [List.take_length] at hall
        rw [hall, List.cons_append, List.cons.injEq] at h
        obtain ⟨rfl, h⟩ := h
        obtain ⟨hf, hb⟩ := ih h
        rw [width_cons, length_ofChar_shown, Nat.add_comm 1]
        exact ⟨by rw [List.take_succ_cons, hs, hf], hb⟩

/-- Decoding loses no unit. -/
theorem width_decode (units : List UInt16) : width (decode units) = units.length := by
  fun_induction decode units with
  | case1 => rfl
  | case2 u =>
    rw [width_cons]
    exact length_ofChar_shown u
  | case3 u v rest hh hl ih =>
    rw [width_cons, length_ofChar_pair hh hl, ih]
    simp only [List.length_cons]
    omega
  | case4 u v rest hh hl ih =>
    rw [width_cons, ih, Nat.add_comm]
    rfl
  | case5 u v rest hh hl ih =>
    rw [width_cons, ih, Nat.add_comm]
    rfl
  | case6 u v rest hh hl ih =>
    have hs : shown u = Char.ofNat u.toNat := by simp [shown, hh, hl]
    rw [width_cons, ih, ← hs, length_ofChar_shown, Nat.add_comm]
    rfl

theorem decode_one {n : Nat} (h : n < 0x10000) (hv : n < 0xD800 ∨ 0xDFFF < n) (us : List UInt16) :
    decode (n.toUInt16 :: us) = Char.ofNat n :: decode us := by
  have hn : n.toUInt16.toNat = n := by
    rw [UInt16.toNat_ofNat', Nat.mod_eq_of_lt (by omega)]
  have hh : ¬isHigh n.toUInt16 = true := by
    rw [isHigh_iff, hn]
    omega
  have hl : ¬isLow n.toUInt16 = true := by
    rw [isLow_iff, hn]
    omega
  rw [decode_single fun v _ h => hh h.1]
  simp [shown, hh, hl, hn]

theorem decode_two {n : Nat} (h : 0x10000 ≤ n) (hv : n < 0x110000) (us : List UInt16) :
    decode ((0xD800 + (n - 0x10000) / 0x400).toUInt16 :: (0xDC00 + (n - 0x10000) % 0x400).toUInt16 :: us) =
      Char.ofNat n :: decode us := by
  have hn : (0xD800 + (n - 0x10000) / 0x400).toUInt16.toNat = 0xD800 + (n - 0x10000) / 0x400 := by
    rw [UInt16.toNat_ofNat', Nat.mod_eq_of_lt (by omega)]
  have hm : (0xDC00 + (n - 0x10000) % 0x400).toUInt16.toNat = 0xDC00 + (n - 0x10000) % 0x400 := by
    rw [UInt16.toNat_ofNat', Nat.mod_eq_of_lt (by omega)]
  have hh : isHigh (0xD800 + (n - 0x10000) / 0x400).toUInt16 = true := by
    rw [isHigh_iff, hn]
    omega
  have hl : isLow (0xDC00 + (n - 0x10000) % 0x400).toUInt16 = true := by
    rw [isLow_iff, hm]
    omega
  have hsum : 0x10000 + (0xD800 + (n - 0x10000) / 0x400 - 0xD800) * 0x400 +
      (0xDC00 + (n - 0x10000) % 0x400 - 0xDC00) = n := by
    omega
  rw [decode_pair hh hl, pair, hn, hm, hsum]

/-- A character of a text is read back from its units. -/
theorem decode_ofChar_append (c : Char) (us : List UInt16) :
    decode (ofChar c ++ us) = c :: decode us := by
  have hv : c.toNat < 0xD800 ∨ (0xDFFF < c.toNat ∧ c.toNat < 0x110000) := c.valid
  have hc : Char.ofNat c.toNat = c := Char.ofNat_toNat c
  unfold ofChar
  split
  · rename_i h
    rw [List.singleton_append, decode_one h (by omega), hc]
  · rename_i h
    rw [List.cons_append, List.singleton_append, decode_two (by omega) (by omega), hc]

@[simp] theorem decode_flatMap_ofChar (cs : List Char) : decode (cs.flatMap ofChar) = cs := by
  induction cs with
  | nil => rfl
  | cons c cs ih => rw [List.flatMap_cons, decode_ofChar_append, ih]

@[simp] theorem toText_encode (s : String) : toText (encode s) = s := by
  simp [toText, encode]

end Restyle.Utf16
