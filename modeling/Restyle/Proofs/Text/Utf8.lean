import Restyle.Proofs.Text.Utf16
import Restyle.Edit.Offset
import Restyle.Text.Utf8

/-! # Bytes of a text

A character is written as a lead byte and continuation bytes, and the lead byte alone tells how many.
So the bytes of a text are read back as that text, and a byte offset is a boundary exactly where a
character of the text starts or the text ends.
-/
namespace Restyle.Utf8

def size (cs : List Char) : Nat := (cs.flatMap String.utf8EncodeChar).length

@[simp] theorem size_nil : size [] = 0 := rfl

@[simp] theorem size_cons (c : Char) (cs : List Char) :
    size (c :: cs) = (String.utf8EncodeChar c).length + size cs := by
  simp [size]

@[simp] theorem size_append (cs ds : List Char) : size (cs ++ ds) = size cs + size ds := by
  simp [size]

theorem encode_ofList (cs : List Char) : encode (String.ofList cs) = cs.flatMap String.utf8EncodeChar := by
  simp [encode]

theorem isContinuation_iff (b : UInt8) : isContinuation b = true ↔ 0x80 ≤ b.toNat ∧ b.toNat ≤ 0xBF := by
  simp [isContinuation, UInt8.le_iff_toNat_le]

def continuation (n : Nat) : UInt8 := UInt8.ofNat (n % 0x40 + 0x80)

@[simp] theorem toNat_continuation (n : Nat) : (continuation n).toNat = n % 0x40 + 0x80 := by
  rw [continuation, UInt8.toNat_ofNat', Nat.mod_eq_of_lt (by omega)]

theorem isContinuation_continuation (n : Nat) : isContinuation (continuation n) = true := by
  rw [isContinuation_iff, toNat_continuation]
  omega

/-! ### The shape of a character -/

theorem utf8EncodeChar_one {c : Char} (h : c.toNat ≤ 0x7F) :
    String.utf8EncodeChar c = [UInt8.ofNat c.toNat] := by
  rw [← Char.toNat_val] at h ⊢
  rw [String.utf8EncodeChar, if_pos h]

theorem utf8EncodeChar_two {c : Char} (h : 0x7F < c.toNat) (h' : c.toNat ≤ 0x7FF) :
    String.utf8EncodeChar c = [UInt8.ofNat (c.toNat / 0x40 + 0xC0), continuation c.toNat] := by
  have hd : c.toNat / 64 % 32 = c.toNat / 64 := Nat.mod_eq_of_lt (by omega)
  rw [← Char.toNat_val] at *
  rw [String.utf8EncodeChar, if_neg (by omega), if_pos h', hd]
  rfl

theorem utf8EncodeChar_three {c : Char} (h : 0x7FF < c.toNat) (h' : c.toNat ≤ 0xFFFF) :
    String.utf8EncodeChar c = [UInt8.ofNat (c.toNat / 0x1000 + 0xE0), continuation (c.toNat / 0x40),
      continuation c.toNat] := by
  have hd : c.toNat / 4096 % 16 = c.toNat / 4096 := Nat.mod_eq_of_lt (by omega)
  rw [← Char.toNat_val] at *
  rw [String.utf8EncodeChar, if_neg (by omega), if_neg (by omega), if_pos h', hd]
  rfl

/-- A character is below the surrogates or above them. -/
theorem toNat_cases (c : Char) : c.toNat < 0xD800 ∨ (0xDFFF < c.toNat ∧ c.toNat < 0x110000) := c.valid

theorem utf8EncodeChar_four {c : Char} (h : 0xFFFF < c.toNat) :
    String.utf8EncodeChar c = [UInt8.ofNat (c.toNat / 0x40000 + 0xF0), continuation (c.toNat / 0x1000),
      continuation (c.toNat / 0x40), continuation c.toNat] := by
  have hv := toNat_cases c
  have hd : c.toNat / 262144 % 8 = c.toNat / 262144 := Nat.mod_eq_of_lt (by omega)
  rw [← Char.toNat_val] at *
  rw [String.utf8EncodeChar, if_neg (by omega), if_neg (by omega), if_neg (by omega), hd]
  rfl

theorem toNat_ofNat {n : Nat} (h : n < 0x100) : (UInt8.ofNat n).toNat = n := by
  rw [UInt8.toNat_ofNat', Nat.mod_eq_of_lt h]

theorem codePointSize_eq (b : UInt8) : codePointSize b =
    if b.toNat ≤ 0x7F then (1, 1)
    else if 0xC0 ≤ b.toNat ∧ b.toNat ≤ 0xDF then (2, 1)
    else if 0xE0 ≤ b.toNat ∧ b.toNat ≤ 0xEF then (3, 1)
    else if 0xF0 ≤ b.toNat ∧ b.toNat ≤ 0xF7 then (4, 2)
    else (1, 1) := by
  simp [codePointSize, UInt8.le_iff_toNat_le]

/-- A character is written as a lead byte, from which its lengths in bytes and in units can be told,
and continuation bytes. -/
theorem utf8EncodeChar_shape (c : Char) : ∃ b bs, String.utf8EncodeChar c = b :: bs ∧
    codePointSize b = (bs.length + 1, (Utf16.ofChar c).length) ∧ ¬isContinuation b = true ∧
    ∀ x ∈ bs, isContinuation x = true := by
  have hv := toNat_cases c
  rw [Utf16.length_ofChar]
  simp only [codePointSize_eq]
  by_cases h1 : c.toNat ≤ 0x7F
  · refine ⟨_, _, utf8EncodeChar_one h1, ?_, ?_, by simp⟩
    · rw [toNat_ofNat (by omega), if_pos h1, if_pos (by omega)]
      rfl
    · rw [isContinuation_iff, toNat_ofNat (by omega)]
      omega
  by_cases h2 : c.toNat ≤ 0x7FF
  · refine ⟨_, _, utf8EncodeChar_two (by omega) h2, ?_, ?_, ?_⟩
    · rw [toNat_ofNat (by omega), if_neg (by omega), if_pos (by omega), if_pos (by omega)]
      rfl
    · rw [isContinuation_iff, toNat_ofNat (by omega)]
      omega
    · simp only [List.mem_singleton]
      rintro x rfl
      exact isContinuation_continuation _
  by_cases h3 : c.toNat ≤ 0xFFFF
  · refine ⟨_, _, utf8EncodeChar_three (by omega) h3, ?_, ?_, ?_⟩
    · rw [toNat_ofNat (by omega), if_neg (by omega), if_neg (by omega), if_pos (by omega), if_pos (by omega)]
      rfl
    · rw [isContinuation_iff, toNat_ofNat (by omega)]
      omega
    · simp only [List.mem_cons, List.not_mem_nil, or_false]
      rintro x (rfl | rfl) <;> exact isContinuation_continuation _
  · refine ⟨_, _, utf8EncodeChar_four (by omega), ?_, ?_, ?_⟩
    · rw [toNat_ofNat (by omega), if_neg (by omega), if_neg (by omega), if_neg (by omega), if_pos (by omega),
        if_neg (by omega)]
      rfl
    · rw [isContinuation_iff, toNat_ofNat (by omega)]
      omega
    · simp only [List.mem_cons, List.not_mem_nil, or_false]
      rintro x (rfl | rfl | rfl) <;> exact isContinuation_continuation _

/-! ### Reading a character back -/

theorem lead_two {b : UInt8} (h : 0xC2 ≤ b.toNat) (h' : b.toNat ≤ 0xDF) :
    lead b = some (1, 0x80, 0xBF, b.toNat - 0xC0) := by
  have hc : 0xC2 ≤ b && b ≤ 0xDF := by simpa [UInt8.le_iff_toNat_le] using ⟨h, h'⟩
  rw [lead, if_pos hc]

theorem lead_three {b : UInt8} (h : 0xE0 ≤ b.toNat) (h' : b.toNat ≤ 0xEF) :
    ∃ low high, lead b = some (2, low, high, b.toNat - 0xE0) ∧
      low.toNat = (if b.toNat = 0xE0 then 0xA0 else 0x80) ∧
      high.toNat = if b.toNat = 0xED then 0x9F else 0xBF := by
  simp only [lead, UInt8.le_iff_toNat_le, beq_iff_eq, Bool.and_eq_true, decide_eq_true_eq, ← UInt8.toNat_inj,
    UInt8.reduceToNat]
  rw [if_neg (by omega)]
  by_cases h0 : b.toNat = 0xE0
  · exact ⟨_, _, by rw [if_pos h0, h0], by rw [if_pos h0]; rfl, by rw [if_neg (by omega)]; rfl⟩
  by_cases hd : b.toNat = 0xED
  · exact ⟨_, _, by rw [if_neg h0, if_pos hd, hd], by rw [if_neg h0]; rfl, by rw [if_pos hd]; rfl⟩
  · exact ⟨_, _, by rw [if_neg h0, if_neg hd, if_pos (by omega)], by rw [if_neg h0]; rfl, by rw [if_neg hd]; rfl⟩

theorem lead_four {b : UInt8} (h : 0xF0 ≤ b.toNat) (h' : b.toNat ≤ 0xF4) :
    ∃ low high, lead b = some (3, low, high, b.toNat - 0xF0) ∧
      low.toNat = (if b.toNat = 0xF0 then 0x90 else 0x80) ∧
      high.toNat = if b.toNat = 0xF4 then 0x8F else 0xBF := by
  simp only [lead, UInt8.le_iff_toNat_le, beq_iff_eq, Bool.and_eq_true, decide_eq_true_eq, ← UInt8.toNat_inj,
    UInt8.reduceToNat]
  rw [if_neg (by omega), if_neg (by omega), if_neg (by omega), if_neg (by omega)]
  by_cases h0 : b.toNat = 0xF0
  · exact ⟨_, _, by rw [if_pos h0, h0], by rw [if_pos h0]; rfl, by rw [if_neg (by omega)]; rfl⟩
  by_cases h4 : b.toNat = 0xF4
  · exact ⟨_, _, by rw [if_neg h0, if_neg (by omega), if_pos h4, h4], by rw [if_neg h0]; rfl,
      by rw [if_pos h4]; rfl⟩
  · exact ⟨_, _, by rw [if_neg h0, if_pos (by omega)], by rw [if_neg h0]; rfl, by rw [if_neg h4]; rfl⟩

theorem piece_of_lead {b low high : UInt8} {need bits n : Nat} {bs : List UInt8} (hb : 0x80 ≤ b.toNat)
    (hl : lead b = some (need + 1, low, high, bits)) (h : low.toNat ≤ n % 0x40 + 0x80)
    (h' : n % 0x40 + 0x80 ≤ high.toNat) :
    piece b (continuation n :: bs) = tail (bits * 0x40 + n % 0x40) 1 need bs := by
  have hb' : ¬b < 0x80 := by
    rw [UInt8.lt_iff_toNat_lt]
    exact Nat.not_lt.mpr hb
  have hc : (low ≤ continuation n && continuation n ≤ high) = true := by
    simpa [UInt8.le_iff_toNat_le] using ⟨h, h'⟩
  simp only [piece, if_neg hb', hl, hc, toNat_continuation, Nat.add_sub_cancel]
  rfl

theorem tail_continuation (bits got need n : Nat) (bs : List UInt8) :
    tail bits got (need + 1) (continuation n :: bs) = tail (bits * 0x40 + n % 0x40) (got + 1) need bs := by
  rw [tail, if_pos (isContinuation_continuation n), toNat_continuation, Nat.add_sub_cancel]

theorem piece_one {n : Nat} (h : n ≤ 0x7F) (rest : List UInt8) :
    piece (UInt8.ofNat n) rest = .char (Char.ofNat n) 0 := by
  have hb : (UInt8.ofNat n).toNat = n := toNat_ofNat (by omega)
  have hl : UInt8.ofNat n < 0x80 := by
    rw [UInt8.lt_iff_toNat_lt, hb]
    exact Nat.lt_succ_of_le h
  unfold piece
  rw [if_pos hl, hb]

theorem piece_two {n : Nat} (h : 0x7F < n) (h' : n ≤ 0x7FF) (rest : List UInt8) :
    piece (UInt8.ofNat (n / 0x40 + 0xC0)) (continuation n :: rest) = .char (Char.ofNat n) 1 := by
  have hb : (UInt8.ofNat (n / 0x40 + 0xC0)).toNat = n / 0x40 + 0xC0 := toNat_ofNat (by omega)
  have hl := lead_two (b := UInt8.ofNat (n / 0x40 + 0xC0)) (by omega) (by omega)
  have hn : (n / 0x40 + 0xC0 - 0xC0) * 0x40 + n % 0x40 = n := by omega
  have hhigh : n % 0x40 + 0x80 ≤ 0xBF := by omega
  rw [piece_of_lead (by omega) hl (Nat.le_add_left _ _) hhigh, hb, tail, hn]

theorem piece_three {n : Nat} (h : 0x7FF < n) (h' : n ≤ 0xFFFF) (hv : n < 0xD800 ∨ 0xDFFF < n) (rest : List UInt8) :
    piece (UInt8.ofNat (n / 0x1000 + 0xE0)) (continuation (n / 0x40) :: continuation n :: rest) =
      .char (Char.ofNat n) 2 := by
  have hb : (UInt8.ofNat (n / 0x1000 + 0xE0)).toNat = n / 0x1000 + 0xE0 := toNat_ofNat (by omega)
  obtain ⟨low, high, hl, hlow, hhigh⟩ := lead_three (b := UInt8.ofNat (n / 0x1000 + 0xE0)) (by omega) (by omega)
  rw [hb] at hlow hhigh hl
  have hle : low.toNat ≤ n / 0x40 % 0x40 + 0x80 := by
    rw [hlow]
    split <;> omega
  have hge : n / 0x40 % 0x40 + 0x80 ≤ high.toNat := by
    rw [hhigh]
    split <;> omega
  have hn : ((n / 0x1000 + 0xE0 - 0xE0) * 0x40 + n / 0x40 % 0x40) * 0x40 + n % 0x40 = n := by omega
  rw [piece_of_lead (by omega) hl hle hge, tail_continuation, tail, hn]

theorem piece_four {n : Nat} (h : 0xFFFF < n) (h' : n < 0x110000) (rest : List UInt8) :
    piece (UInt8.ofNat (n / 0x40000 + 0xF0))
      (continuation (n / 0x1000) :: continuation (n / 0x40) :: continuation n :: rest) = .char (Char.ofNat n) 3 := by
  have hb : (UInt8.ofNat (n / 0x40000 + 0xF0)).toNat = n / 0x40000 + 0xF0 := toNat_ofNat (by omega)
  obtain ⟨low, high, hl, hlow, hhigh⟩ := lead_four (b := UInt8.ofNat (n / 0x40000 + 0xF0)) (by omega) (by omega)
  rw [hb] at hlow hhigh hl
  have hle : low.toNat ≤ n / 0x1000 % 0x40 + 0x80 := by
    rw [hlow]
    split <;> omega
  have hge : n / 0x1000 % 0x40 + 0x80 ≤ high.toNat := by
    rw [hhigh]
    split <;> omega
  have hn : (((n / 0x40000 + 0xF0 - 0xF0) * 0x40 + n / 0x1000 % 0x40) * 0x40 + n / 0x40 % 0x40) * 0x40 +
      n % 0x40 = n := by omega
  rw [piece_of_lead (by omega) hl hle hge, tail_continuation, tail_continuation, tail, hn]

/-- The front of a sequence that starts with a character is that character. -/
theorem piece_utf8EncodeChar (c : Char) : ∃ b bs, String.utf8EncodeChar c = b :: bs ∧
    ∀ rest, piece b (bs ++ rest) = .char c bs.length := by
  have hv := toNat_cases c
  have hc : Char.ofNat c.toNat = c := Char.ofNat_toNat c
  by_cases h1 : c.toNat ≤ 0x7F
  · refine ⟨_, _, utf8EncodeChar_one h1, ?_⟩
    intro rest
    rw [List.nil_append, piece_one h1, hc]
    rfl
  by_cases h2 : c.toNat ≤ 0x7FF
  · refine ⟨_, _, utf8EncodeChar_two (by omega) h2, ?_⟩
    intro rest
    rw [List.singleton_append, piece_two (by omega) h2, hc]
    rfl
  by_cases h3 : c.toNat ≤ 0xFFFF
  · refine ⟨_, _, utf8EncodeChar_three (by omega) h3, ?_⟩
    intro rest
    rw [List.cons_append, List.singleton_append, piece_three (by omega) h3 (by omega), hc]
    rfl
  · refine ⟨_, _, utf8EncodeChar_four (by omega), ?_⟩
    intro rest
    rw [List.cons_append, List.cons_append, List.singleton_append, piece_four (by omega) (by omega), hc]
    rfl

/-- The characters of a text are read back from its bytes. -/
@[simp] theorem decodeLossy_flatMap_utf8EncodeChar (cs : List Char) :
    decodeLossy (cs.flatMap String.utf8EncodeChar) = cs := by
  induction cs with
  | nil => simp [decodeLossy]
  | cons c cs ih =>
    obtain ⟨b, bs, hc, hp⟩ := piece_utf8EncodeChar c
    rw [List.flatMap_cons, hc, List.cons_append, decodeLossy, hp]
    simp only [List.drop_left, ih]

@[simp] theorem toText_encode (s : String) : toText (encode s) = s := by
  simp [toText, encode]

/-! ### Boundaries -/

/-- Whether a byte offset is where a character starts, or the end. -/
def IsBoundary (bytes : List UInt8) (offset : Nat) : Prop :=
  offset = bytes.length ∨ ∃ b, bytes[offset]? = some b ∧ ¬isContinuation b = true

instance (bytes : List UInt8) (offset : Nat) : Decidable (IsBoundary bytes offset) :=
  inferInstanceAs (Decidable (offset = bytes.length ∨ ∃ b, bytes[offset]? = some b ∧ ¬isContinuation b = true))

/-- A boundary in the bytes of some characters cuts these characters. -/
theorem IsBoundary.exists_cut {cs : List Char} {offset : Nat}
    (h : IsBoundary (cs.flatMap String.utf8EncodeChar) offset) :
    ∃ front back, cs = front ++ back ∧ offset = size front := by
  induction cs generalizing offset with
  | nil =>
    rcases h with h | ⟨b, hb, -⟩
    · exact ⟨[], [], rfl, h⟩
    · simp at hb
  | cons c cs ih =>
    obtain ⟨b, bs, hc, -, -, hbs⟩ := utf8EncodeChar_shape c
    have hlen : (String.utf8EncodeChar c).length = bs.length + 1 := by rw [hc]; rfl
    by_cases h0 : offset = 0
    · exact ⟨[], c :: cs, rfl, h0⟩
    -- Within the first character there are only continuation bytes behind the lead byte.
    have hin : ¬offset ≤ bs.length := by
      intro hle
      rcases h with h | ⟨x, hx, hn⟩
      · rw [List.flatMap_cons, List.length_append, hlen] at h
        omega
      · rw [List.flatMap_cons, hc, List.cons_append, List.getElem?_cons, if_neg h0,
          List.getElem?_append_left (by omega)] at hx
        exact hn (hbs x (List.mem_of_getElem? hx))
    have hrest : IsBoundary (cs.flatMap String.utf8EncodeChar) (offset - (bs.length + 1)) := by
      rcases h with h | ⟨x, hx, hn⟩
      · rw [List.flatMap_cons, List.length_append, hlen] at h
        exact Or.inl (by omega)
      · rw [List.flatMap_cons, List.getElem?_append_right (by omega), hlen] at hx
        exact Or.inr ⟨x, hx, hn⟩
    obtain ⟨front, back, rfl, hs⟩ := ih hrest
    refine ⟨c :: front, back, rfl, ?_⟩
    rw [size_cons, hlen, ← hs]
    omega

theorem isBoundary_size (front back : List Char) :
    IsBoundary ((front ++ back).flatMap String.utf8EncodeChar) (size front) := by
  rw [List.flatMap_append]
  cases back with
  | nil => exact Or.inl (by simp [size])
  | cons c cs =>
    obtain ⟨b, bs, hc, -, hb, -⟩ := utf8EncodeChar_shape c
    refine Or.inr ⟨b, ?_, hb⟩
    rw [size, List.getElem?_append_right (Nat.le_refl _), Nat.sub_self, List.flatMap_cons, hc]
    rfl

/-- The boundaries in the bytes of some characters are where these characters can be cut. -/
theorem isBoundary_iff {cs : List Char} {offset : Nat} : IsBoundary (cs.flatMap String.utf8EncodeChar) offset ↔
    ∃ front back, cs = front ++ back ∧ offset = size front := by
  constructor
  · intro h
    exact h.exists_cut
  · rintro ⟨front, back, rfl, rfl⟩
    exact isBoundary_size front back

theorem size_pos {cs : List Char} (h : cs ≠ []) : 0 < size cs := by
  obtain ⟨c, rest, rfl⟩ := List.exists_cons_of_ne_nil h
  obtain ⟨b, bs, hc, -⟩ := utf8EncodeChar_shape c
  rw [size_cons, hc, List.length_cons]
  omega

/-- A boundary behind a cut is a cut of the characters behind it. -/
theorem IsBoundary.exists_cut_after {front back : List Char} {offset : Nat}
    (h : IsBoundary ((front ++ back).flatMap String.utf8EncodeChar) offset) (hle : size front ≤ offset) :
    ∃ gap rest, back = gap ++ rest ∧ offset = size (front ++ gap) := by
  obtain ⟨before, after, he, rfl⟩ := h.exists_cut
  rcases List.append_eq_append_iff.mp he with ⟨gap, rfl, rfl⟩ | ⟨more, rfl, rfl⟩
  · exact ⟨gap, after, rfl, rfl⟩
  · by_cases hm : more = []
    · exact ⟨[], back, rfl, by simp [hm]⟩
    · have := size_pos hm
      rw [size_append] at hle
      omega

end Restyle.Utf8
