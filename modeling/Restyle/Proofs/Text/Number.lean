import Mathlib.Data.List.DropRight
import Mathlib.Data.List.TakeWhile
import Restyle.Text.Blank
import Restyle.Text.Number

/-! # Numbers are read back

The decimal digits of a number are read as that number, unless it needs more than 64 bits.  Trimming
blanks first changes nothing: a text without blanks is left as it is.
-/
namespace Restyle.Text

theorem digitValue?_of_isDigit {c : Char} (h : c.isDigit = true) :
    digitValue? c = some (c.toNat - '0'.toNat) := by
  have hc : (0x30 ≤ c.toNat && c.toNat ≤ 0x39) = true := by
    simpa [Char.isDigit, UInt32.le_iff_toNat_le] using h
  rw [digitValue?, if_pos hc]
  rfl

theorem le_ofDigitChars (cs : List Char) (acc : Nat) : acc ≤ Nat.ofDigitChars 10 cs acc := by
  rw [Nat.ofDigitChars_eq_ofDigitChars_zero]
  have hp : acc ≤ 10 ^ cs.length * acc := Nat.le_mul_of_pos_left acc (Nat.pow_pos (by decide))
  omega

/-- Digits are read up to the largest number of 64 bits. -/
theorem readDigits_eq {cs : List Char} {acc : Nat} (hd : ∀ c ∈ cs, c.isDigit = true) (ha : acc ≤ maxWord) :
    readDigits acc cs =
      if Nat.ofDigitChars 10 cs acc ≤ maxWord then .ok (Nat.ofDigitChars 10 cs acc) else .error .tooLarge := by
  induction cs generalizing acc with
  | nil => rw [Nat.ofDigitChars_nil, if_pos ha]; rfl
  | cons c cs ih =>
    have hc := digitValue?_of_isDigit (hd c List.mem_cons_self)
    have hle := le_ofDigitChars cs (acc * 10 + (c.toNat - '0'.toNat))
    rw [Nat.ofDigitChars_cons, Nat.mul_comm]
    simp only [readDigits, hc]
    split
    · rename_i hlarge
      rw [if_neg (Nat.not_le.mpr (Nat.lt_of_lt_of_le hlarge hle))]
    · rename_i hsmall
      exact ih (fun x hx => hd x (List.mem_cons_of_mem c hx)) (Nat.not_lt.mp hsmall)

theorem toList_toString (n : Nat) : (toString n).toList = Nat.toDigits 10 n := by
  rw [Nat.toString_eq_repr, Nat.toList_repr]

theorem eq_of_toString_eq {n k : Nat} (h : toString n = toString k) : n = k := by
  have hdigits := congrArg (fun s : String => Nat.ofDigitChars 10 s.toList 0) h
  rw [toList_toString, toList_toString, Nat.ofDigitChars_ten_toDigits, Nat.ofDigitChars_ten_toDigits] at hdigits
  exact hdigits

theorem isDigit_of_mem_toString {n : Nat} {c : Char} (h : c ∈ (toString n).toList) : c.isDigit = true := by
  rw [toList_toString] at h
  exact Nat.isDigit_of_mem_toDigits (by decide) (by decide) h

theorem toList_toString_negSucc (n : Nat) :
    (toString (Int.negSucc n)).toList = '-' :: (toString (n + 1)).toList := by
  change ("-" ++ toString (n + 1)).toList = _
  rw [String.toList_append]
  rfl

theorem of_mem_toString_int {n : Int} {c : Char} (h : c ∈ (toString n).toList) : c = '-' ∨ c.isDigit = true := by
  cases n with
  | ofNat n => exact Or.inr (isDigit_of_mem_toString h)
  | negSucc n =>
    rw [toList_toString_negSucc] at h
    exact (List.mem_cons.mp h).imp_right isDigit_of_mem_toString

theorem toLower_of_isDigit {c : Char} (h : c.isDigit = true) : c.toLower = c := by
  have hdigit : 48 ≤ c.toNat ∧ c.toNat ≤ 57 := by
    simpa [Char.isDigit, UInt32.le_iff_toNat_le] using h
  unfold Char.toLower
  rw [dif_neg]
  intro hupper
  have hletter : 65 ≤ c.toNat ∧ c.toNat ≤ 90 := by
    simpa [UInt32.le_iff_toNat_le] using hupper
  omega

theorem toList_toString_ne_nil (n : Nat) : (toString n).toList ≠ [] := by
  rw [toList_toString]
  exact Nat.toDigits_ne_nil

/-- A number is read back from its digits if it has 64 bits, and refused otherwise. -/
theorem readWord_toString (n : Nat) :
    readWord (toString n).toList = if n ≤ maxWord then .ok n else .error .tooLarge := by
  have hplus : ∀ cs, (toString n).toList ≠ '+' :: cs := by
    intro cs hcs
    exact absurd (isDigit_of_mem_toString (n := n) (hcs ▸ List.mem_cons_self)) (by decide)
  have hdigits : ∀ c ∈ (toString n).toList, c.isDigit = true := by
    intro c hc
    exact isDigit_of_mem_toString hc
  have hread := readDigits_eq hdigits (Nat.zero_le maxWord)
  have hvalue : Nat.ofDigitChars 10 (toString n).toList 0 = n := by
    rw [toList_toString, Nat.ofDigitChars_ten_toDigits]
  rw [hvalue] at hread
  unfold readWord
  split
  · exact absurd ‹_› (toList_toString_ne_nil n)
  · exact absurd ‹_› (hplus _)
  · exact absurd ‹_› (hplus _)
  · exact hread

/-! ### Numbers as a relation -/

/-- A text writes a number of 64 bits: decimal digits, with an optional plus sign before them. -/
def IsWord (cs : List Char) (n : Nat) : Prop :=
  ∃ digits : List Char, (cs = digits ∨ cs = '+' :: digits) ∧ digits ≠ [] ∧ (∀ c ∈ digits, c.isDigit = true) ∧
    Nat.ofDigitChars 10 digits 0 = n ∧ n ≤ maxWord

theorem isDigit_of_digitValue? {c : Char} {d : Nat} (h : digitValue? c = some d) : c.isDigit = true := by
  unfold digitValue? at h
  split at h
  · rename_i hc
    simpa [Char.isDigit, UInt32.le_iff_toNat_le] using hc
  · cases h

theorem isDigit_of_readDigits {cs : List Char} {acc n : Nat} (h : readDigits acc cs = .ok n) :
    ∀ c ∈ cs, c.isDigit = true := by
  induction cs generalizing acc with
  | nil => simp
  | cons c cs ih =>
    simp only [readDigits] at h
    split at h
    · cases h
    · rename_i d hd
      split at h
      · cases h
      · intro x hx
        rcases List.mem_cons.mp hx with rfl | hx
        · exact isDigit_of_digitValue? hd
        · exact ih h x hx

theorem readDigits_eq_ok_iff {cs : List Char} {n : Nat} :
    readDigits 0 cs = .ok n ↔ (∀ c ∈ cs, c.isDigit = true) ∧ Nat.ofDigitChars 10 cs 0 = n ∧ n ≤ maxWord := by
  constructor
  · intro h
    have hdigits := isDigit_of_readDigits h
    rw [readDigits_eq hdigits (Nat.zero_le maxWord)] at h
    split at h
    · rename_i hle
      cases h
      exact ⟨hdigits, rfl, hle⟩
    · cases h
  · rintro ⟨hdigits, rfl, hle⟩
    rw [readDigits_eq hdigits (Nat.zero_le maxWord), if_pos hle]

/-- The reader accepts exactly the written numbers. -/
theorem readWord_eq_ok_iff {cs : List Char} {n : Nat} : readWord cs = .ok n ↔ IsWord cs n := by
  constructor
  · intro h
    unfold readWord at h
    split at h
    · cases h
    · cases h
    · rename_i digits hne
      refine ⟨digits, Or.inr rfl, ?_, readDigits_eq_ok_iff.mp h⟩
      rintro rfl
      exact hne rfl
    · rename_i hne _ _
      exact ⟨cs, Or.inl rfl, hne, readDigits_eq_ok_iff.mp h⟩
  · rintro ⟨digits, hcs, hne, hdigits, hread⟩
    have hok := readDigits_eq_ok_iff.mpr ⟨hdigits, hread⟩
    obtain ⟨c, rest, rfl⟩ := List.exists_cons_of_ne_nil hne
    rcases hcs with rfl | rfl
    · -- a plus sign is no digit, so the first character is not taken for one
      have hplus : c ≠ '+' := by
        rintro rfl
        exact absurd (hdigits '+' List.mem_cons_self) (by decide)
      unfold readWord
      split <;> simp_all
    · exact hok

/-! ### Trimming -/

/-- What is trimmed has no blanks left to trim. -/
theorem trimChars_trimChars (cs : List Char) : trimChars (trimChars cs) = trimChars cs := by
  have hstart : trimStart (trimChars cs) = trimChars cs := by
    refine List.dropWhile_eq_self_iff.mpr fun hl => ?_
    -- What is left at the end begins as what is left at the front does.
    have hpre : trimChars cs <+: trimStart cs := List.rdropWhile_prefix isBlank (trimStart cs)
    rw [hpre.getElem hl]
    exact List.dropWhile_get_zero_not isBlank cs (hl.trans_le hpre.length_le)
  have hend : trimEnd (trimChars cs) = trimChars cs := List.rdropWhile_idempotent isBlank (trimStart cs)
  rw [trimChars, hstart, hend]

theorem trim_trim (s : String) : trim (trim s) = trim s := by
  rw [trim, trim, String.toList_ofList, trimChars_trimChars]

theorem trimChars_of_not_isBlank {cs : List Char} (h : ∀ c ∈ cs, ¬isBlank c = true) : trimChars cs = cs := by
  have hs : trimStart cs = cs := List.dropWhile_eq_self_iff.mpr fun hl => h _ (List.getElem_mem hl)
  have he : cs.reverse.dropWhile isBlank = cs.reverse :=
    List.dropWhile_eq_self_iff.mpr fun hl => h _ (List.mem_reverse.mp (List.getElem_mem hl))
  rw [trimChars, hs, trimEnd, he, List.reverse_reverse]

theorem not_isBlank_of_isDigit {c : Char} (h : c.isDigit = true) : ¬isBlank c = true := by
  have hc : 0x30 ≤ c.toNat ∧ c.toNat ≤ 0x39 := by
    simpa [Char.isDigit, UInt32.le_iff_toNat_le] using h
  simp [isBlank]
  omega

theorem trimChars_toString (n : Nat) : trimChars (toString n).toList = (toString n).toList :=
  trimChars_of_not_isBlank fun _ h => not_isBlank_of_isDigit (isDigit_of_mem_toString h)

end Restyle.Text
