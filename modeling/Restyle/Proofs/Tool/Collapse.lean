import Mathlib.Data.List.SplitBy
import Restyle.Proofs.Edit.Failure
import Restyle.Proofs.Edit.Splice
import Restyle.Tool.StandIn

/-! # Runs of spaces

The stand-in scans a text once and answers with byte ranges.  What it means by this is told here by the
runs of spaces in the text: each maximal run is one piece, and every other character is a piece of its own.
-/
namespace Restyle.StandIn

/-- The pieces of a text: its maximal runs of spaces, and every other character on its own. -/
def pieces (cs : List Char) : List (List Char) := cs.splitBy fun a b => a == ' ' && b == ' '

/-- A text with one space for each maximal run of spaces. -/
def squeezed (cs : List Char) : List Char := (pieces cs).flatMap (·.take 1)

/-- How many maximal runs of two or more spaces a text has. -/
def longRuns (cs : List Char) : Nat := ((pieces cs).filter (1 < ·.length)).length

def spaces (n : Nat) : List Char := List.replicate n ' '

/-! ### Pieces -/

theorem pieces_spaces (n : Nat) : pieces (spaces n) = if n = 0 then [] else [spaces n] := by
  split
  · rename_i h
    rw [h]
    rfl
  · rename_i h
    refine List.splitBy_of_isChain ?_ (List.isChain_replicate_of_rel n rfl)
    simpa [spaces] using h

theorem pieces_spaces_append (n : Nat) {c : Char} (hc : c ≠ ' ') (cs : List Char) :
    pieces (spaces n ++ c :: cs) = pieces (spaces n) ++ [c] :: pieces cs := by
  have hright : ∀ a : Char, (a == ' ' && c == ' ') = false := by simp [hc]
  have hleft : ∀ b : Char, (c == ' ' && b == ' ') = false := by simp [hc]
  have hsingle : pieces ([c] ++ cs) = pieces [c] ++ pieces cs := by
    refine List.splitBy_append fun x hx y _ => ?_
    obtain rfl : c = x := by simpa using hx
    exact hleft y
  unfold pieces at hsingle ⊢
  rw [List.splitBy_append_cons _ fun x _ => hright x]
  exact congrArg _ hsingle

theorem squeezed_spaces (n : Nat) : squeezed (spaces n) = spaces (min n 1) := by
  rw [squeezed, pieces_spaces]
  cases n with
  | zero => rfl
  | succ n =>
    rw [Nat.min_eq_right (by omega)]
    rfl

theorem squeezed_spaces_append (n : Nat) {c : Char} (hc : c ≠ ' ') (cs : List Char) :
    squeezed (spaces n ++ c :: cs) = spaces (min n 1) ++ c :: squeezed cs := by
  rw [← squeezed_spaces]
  unfold squeezed
  rw [pieces_spaces_append n hc, List.flatMap_append]
  rfl

theorem longRuns_spaces (n : Nat) : longRuns (spaces n) = if 1 < n then 1 else 0 := by
  rw [longRuns, pieces_spaces]
  by_cases h0 : n = 0
  · simp [h0]
  · by_cases h1 : 1 < n
    · simp [h0, h1, spaces]
    · simp [h0, h1, spaces]

theorem longRuns_spaces_append (n : Nat) {c : Char} (hc : c ≠ ' ') (cs : List Char) :
    longRuns (spaces n ++ c :: cs) = longRuns (spaces n) + longRuns cs := by
  unfold longRuns
  rw [pieces_spaces_append n hc, List.filter_append, List.length_append]
  rfl

theorem spaces_append_cons (n : Nat) (cs : List Char) : spaces n ++ ' ' :: cs = spaces (n + 1) ++ cs := by
  rw [spaces, spaces, List.replicate_succ', List.append_assoc]
  rfl

/-- A text that is squeezed has no long run left. -/
theorem longRuns_squeezed (n : Nat) (cs : List Char) : longRuns (squeezed (spaces n ++ cs)) = 0 := by
  have hshort : longRuns (spaces (min n 1)) = 0 := by
    rw [longRuns_spaces, if_neg (by omega)]
  induction cs generalizing n with
  | nil => rw [List.append_nil, squeezed_spaces, hshort]
  | cons c cs ih =>
    by_cases hc : c = ' '
    · subst hc
      rw [spaces_append_cons]
      refine ih (n + 1) ?_
      rw [longRuns_spaces, if_neg (by omega)]
    · rw [squeezed_spaces_append n hc, longRuns_spaces_append _ hc, hshort, Nat.zero_add]
      exact ih 0 rfl

theorem size_squeezed_le (cs : List Char) : Utf8.size (squeezed cs) ≤ Utf8.size cs := by
  have hpieces (ps : List (List Char)) : Utf8.size (ps.flatMap (·.take 1)) ≤ Utf8.size ps.flatten := by
    induction ps with
    | nil => exact Nat.le_refl _
    | cons p ps ih =>
      rw [List.flatMap_cons, List.flatten_cons, Utf8.size_append, Utf8.size_append]
      have hsplit := Utf8.size_append (p.take 1) (p.drop 1)
      rw [List.take_append_drop] at hsplit
      omega
  have hsize := hpieces (pieces cs)
  unfold pieces at hsize
  rwa [List.flatten_splitBy] at hsize

/-! ### Replacements -/

theorem length_collapseFrom (offset n : Nat) (cs : List Char) :
    (collapseFrom offset n cs).length = longRuns (spaces n ++ cs) := by
  induction cs generalizing offset n with
  | nil =>
    rw [List.append_nil, longRuns_spaces, collapseFrom]
    split <;> rfl
  | cons c cs ih =>
    by_cases hc : c = ' '
    · subst hc
      rw [collapseFrom, if_pos rfl, ih, spaces_append_cons]
    · rw [collapseFrom, if_neg hc, longRuns_spaces_append n hc, longRuns_spaces]
      have hrest := ih (offset + n + c.utf8Size) 0
      split
      · rw [List.length_cons, hrest, Nat.add_comm]
        rfl
      · rw [hrest, Nat.zero_add]
        rfl

theorem le_of_mem_collapseFrom {offset n : Nat} {cs : List Char} {r : Replacement}
    (h : r ∈ collapseFrom offset n cs) : offset ≤ r.offset := by
  induction cs generalizing offset n with
  | nil =>
    rw [collapseFrom] at h
    split at h
    · rw [List.mem_singleton.mp h]
    · cases h
  | cons c cs ih =>
    by_cases hc : c = ' '
    · rw [collapseFrom, if_pos hc] at h
      exact ih h
    · rw [collapseFrom, if_neg hc] at h
      split at h
      · rcases List.mem_cons.mp h with rfl | h
        · exact Nat.le_refl _
        · have := ih h
          omega
      · have := ih h
        omega

theorem size_spaces (n : Nat) : Utf8.size (spaces n) = n := by
  induction n with
  | zero => rfl
  | succ n ih =>
    rw [spaces, List.replicate_succ, Utf8.size_cons]
    rw [spaces] at ih
    rw [ih, Nat.add_comm]
    rfl

theorem size_singleton (c : Char) : Utf8.size [c] = c.utf8Size := by
  rw [Utf8.size_cons]
  simp [Utf8.size]

/-- Each replacement is for a run of spaces in the text. -/
theorem exists_run_of_mem_collapseFrom {front cs : List Char} {n : Nat} {r : Replacement}
    (h : r ∈ collapseFrom (Utf8.size front) n cs) :
    ∃ before length after, front ++ spaces n ++ cs = before ++ spaces length ++ after ∧
      r = ⟨Utf8.size before, length, " "⟩ := by
  induction cs generalizing front n with
  | nil =>
    rw [collapseFrom] at h
    split at h
    · exact ⟨front, n, [], rfl, List.mem_singleton.mp h⟩
    · cases h
  | cons c cs ih =>
    by_cases hc : c = ' '
    · subst hc
      rw [collapseFrom, if_pos rfl] at h
      obtain ⟨before, length, after, hsplit, hr⟩ := ih h
      refine ⟨before, length, after, ?_, hr⟩
      rw [← hsplit, List.append_assoc, spaces_append_cons, ← List.append_assoc]
    · have hsize : Utf8.size front + n + c.utf8Size = Utf8.size (front ++ spaces n ++ [c]) := by
        rw [Utf8.size_append, Utf8.size_append, size_spaces, size_singleton]
      have hrest (h : r ∈ collapseFrom (Utf8.size front + n + c.utf8Size) 0 cs) :
          ∃ before length after, front ++ spaces n ++ c :: cs = before ++ spaces length ++ after ∧
            r = ⟨Utf8.size before, length, " "⟩ := by
        rw [hsize] at h
        obtain ⟨before, length, after, hsplit, hr⟩ := ih h
        refine ⟨before, length, after, ?_, hr⟩
        rw [← hsplit]
        simp [spaces]
      rw [collapseFrom, if_neg hc] at h
      split at h
      · rcases List.mem_cons.mp h with rfl | h
        · exact ⟨front, n, c :: cs, rfl, rfl⟩
        · exact hrest h
      · exact hrest h

theorem isChain_collapseFrom (offset n : Nat) (cs : List Char) :
    (collapseFrom offset n cs).IsChain Replacement.EndsBefore := by
  induction cs generalizing offset n with
  | nil =>
    rw [collapseFrom]
    split
    · exact List.isChain_singleton _
    · exact List.isChain_nil
  | cons c cs ih =>
    by_cases hc : c = ' '
    · rw [collapseFrom, if_pos hc]
      exact ih offset (n + 1)
    · rw [collapseFrom, if_neg hc]
      split
      · refine List.isChain_cons.mpr ⟨?_, ih _ 0⟩
        intro next hnext
        have hle := le_of_mem_collapseFrom (List.mem_of_mem_head? hnext)
        change offset + n ≤ next.offset
        omega
      · exact ih _ 0

/-- The replacements for a text of the stand-in lie in order on boundaries of the text. -/
theorem collapse_inOrder {cs : List Char} (hsize : Utf8.size cs ≤ maxWord) :
    (∀ r ∈ (collapse cs).replacements, r.offset + r.length ≤ maxWord) ∧
      Replacement.InOrder (cs.flatMap String.utf8EncodeChar) (collapse cs).replacements := by
  have hplace : ∀ r ∈ (collapse cs).replacements, ∃ before length after,
      cs = before ++ spaces length ++ after ∧ r = ⟨Utf8.size before, length, " "⟩ ∧
        r.offset + r.length = Utf8.size (before ++ spaces length) ∧ r.offset + r.length ≤ maxWord := by
    intro r hr
    have hmem : r ∈ collapseFrom (Utf8.size []) 0 cs := hr
    obtain ⟨before, length, after, hsplit, rfl⟩ := exists_run_of_mem_collapseFrom hmem
    have hcs : cs = before ++ spaces length ++ after := hsplit
    have hend : Utf8.size before + length = Utf8.size (before ++ spaces length) := by
      rw [Utf8.size_append, size_spaces]
    refine ⟨before, length, after, hcs, rfl, hend, ?_⟩
    rw [hcs, Utf8.size_append] at hsize
    dsimp only
    omega
  have hfit : ∀ r ∈ (collapse cs).replacements, r.offset + r.length ≤ maxWord := by
    intro r hr
    obtain ⟨-, -, -, -, -, -, hle⟩ := hplace r hr
    exact hle
  refine ⟨hfit, ?_, ?_, isChain_collapseFrom 0 0 cs⟩
  · intro r hr
    exact Nat.le_trans (Nat.le_add_right _ _) (hfit r hr)
  · intro r hr
    obtain ⟨before, length, after, hcs, rfl, hend, hle⟩ := hplace r hr
    rw [Replacement.stop_eq hle, hend, hcs]
    refine ⟨?_, Utf8.isBoundary_size _ _⟩
    rw [List.append_assoc]
    exact Utf8.isBoundary_size _ _

/-! ### The new text -/

/-- What stands before the first replacement stays. -/
theorem splice_gap {cs front gap back : List Char} {rs : List Replacement} (hcs : cs = front ++ gap ++ back)
    (hle : ∀ r ∈ rs.head?, Utf8.size (front ++ gap) ≤ r.offset) :
    splice id Utf8.encode (cs.flatMap String.utf8EncodeChar) (Utf8.size front) rs =
      gap.flatMap String.utf8EncodeChar ++
        splice id Utf8.encode (cs.flatMap String.utf8EncodeChar) (Utf8.size (front ++ gap)) rs := by
  have hdrop : (cs.flatMap String.utf8EncodeChar).drop (Utf8.size front) =
      (gap ++ back).flatMap String.utf8EncodeChar := by
    rw [hcs, List.append_assoc, drop_size]
  have hdrop' : (cs.flatMap String.utf8EncodeChar).drop (Utf8.size (front ++ gap)) =
      back.flatMap String.utf8EncodeChar := by
    rw [hcs, drop_size]
  cases rs with
  | nil => rw [splice, splice, hdrop, hdrop', List.flatMap_append]
  | cons r rest =>
    have hge := hle r rfl
    rw [splice, splice, List.drop_take, List.drop_take, hdrop, hdrop', List.flatMap_append]
    have hgap : id r.offset - Utf8.size front =
        (gap.flatMap String.utf8EncodeChar).length + (id r.offset - Utf8.size (front ++ gap)) := by
      rw [Utf8.size_append] at hge ⊢
      change r.offset - Utf8.size front = Utf8.size gap + (r.offset - (Utf8.size front + Utf8.size gap))
      omega
    rw [hgap, List.take_length_add_append]
    simp only [List.append_assoc]

/-- A long run gives way to one space. -/
theorem splice_run {cs front : List Char} {n : Nat} (hsize : Utf8.size (front ++ spaces n) ≤ maxWord)
    (rs : List Replacement) :
    splice id Utf8.encode (cs.flatMap String.utf8EncodeChar) (Utf8.size front) (⟨Utf8.size front, n, " "⟩ :: rs) =
      (spaces 1).flatMap String.utf8EncodeChar ++
        splice id Utf8.encode (cs.flatMap String.utf8EncodeChar) (Utf8.size (front ++ spaces n)) rs := by
  have hstop : (⟨Utf8.size front, n, " "⟩ : Replacement).stop = Utf8.size (front ++ spaces n) := by
    rw [Utf8.size_append, size_spaces] at hsize ⊢
    exact Replacement.stop_eq hsize
  have hspace : Utf8.encode " " = (spaces 1).flatMap String.utf8EncodeChar := rfl
  rw [splice, hstop, id_eq, id_eq, List.drop_take, Nat.sub_self, List.take_zero, List.nil_append, hspace]

/-- The replacements squeeze the text behind a cut of it. -/
theorem splice_collapseFrom {cs front rest : List Char} {n : Nat} (hcs : cs = front ++ spaces n ++ rest)
    (hsize : Utf8.size cs ≤ maxWord) :
    splice id Utf8.encode (cs.flatMap String.utf8EncodeChar) (Utf8.size front)
        (collapseFrom (Utf8.size front) n rest) =
      (squeezed (spaces n ++ rest)).flatMap String.utf8EncodeChar := by
  induction rest generalizing front n with
  | nil =>
    rw [List.append_nil] at hcs ⊢
    rw [squeezed_spaces, collapseFrom]
    split
    · rename_i h
      rw [splice_run (hcs ▸ hsize), Nat.min_eq_right (by omega), splice, hcs]
      rw [Utf8.size, List.drop_length, List.append_nil]
    · rename_i h
      rw [splice, hcs, drop_size, Nat.min_eq_left (by omega)]
  | cons c rest ih =>
    by_cases hc : c = ' '
    · subst hc
      rw [spaces_append_cons, collapseFrom, if_pos rfl]
      refine ih ?_
      rw [hcs, List.append_assoc, List.append_assoc, spaces_append_cons]
    · have hnext : Utf8.size front + n + c.utf8Size = Utf8.size (front ++ spaces n ++ [c]) := by
        rw [Utf8.size_append, Utf8.size_append, size_spaces, size_singleton]
      have hsplit : cs = front ++ spaces n ++ [c] ++ rest := by
        rw [hcs]
        simp
      have hrest := @ih (front ++ spaces n ++ [c]) 0 (by simpa [spaces] using hsplit)
      have hbehind : ∀ r ∈ (collapseFrom (Utf8.size (front ++ spaces n ++ [c])) 0 rest).head?,
          Utf8.size (front ++ spaces n ++ [c]) ≤ r.offset := by
        intro r hr
        exact le_of_mem_collapseFrom (List.mem_of_mem_head? hr)
      rw [collapseFrom, if_neg hc, hnext, squeezed_spaces_append n hc]
      dsimp only
      split
      · rename_i h
        have hle : Utf8.size (front ++ spaces n) ≤ maxWord := by
          rw [hcs, Utf8.size_append] at hsize
          omega
        rw [splice_run hle, splice_gap hsplit hbehind, hrest, Nat.min_eq_right (by omega)]
        simp [spaces]
      · rename_i h
        have hbehind' : ∀ r ∈ (collapseFrom (Utf8.size (front ++ spaces n ++ [c])) 0 rest).head?,
            Utf8.size (front ++ (spaces n ++ [c])) ≤ r.offset := by
          rw [← List.append_assoc]
          exact hbehind
        have hsplit' : cs = front ++ (spaces n ++ [c]) ++ rest := by rw [hsplit, List.append_assoc front]
        rw [splice_gap hsplit' hbehind', ← List.append_assoc, hrest, Nat.min_eq_left (by omega)]
        simp [spaces]

/-- A document that holds a text holds the squeezed text once the replacements of the stand-in are applied. -/
theorem applyReplacements_collapse {b : Buffer} {text : String} (hb : b.units = Utf16.encode text)
    (hsize : (Utf8.encode text).length ≤ maxWord) :
    ∃ after : Buffer, applyReplacements (Utf8.encode text) b (collapse text.toList) = (after, none) ∧
      after.units = Utf16.encode (String.ofList (squeezed text.toList)) := by
  have htext : b.text = text := by rw [Buffer.text, hb, Utf16.toText_encode]
  subst htext
  have hfit : Utf8.size b.text.toList ≤ maxWord := hsize
  have hwhole : b.text.toList = [] ++ b.text.toList := rfl
  have hstart : b.text.toList = [] ++ spaces 0 ++ b.text.toList := rfl
  obtain ⟨-, horder⟩ := collapse_inOrder hfit
  obtain ⟨result, hunits, hbytes⟩ := splice_text horder hwhole (Replacement.size_nil_le_offset _)
  have hresult : result = squeezed b.text.toList := by
    have hsqueezed := splice_collapseFrom hstart hfit
    have hsame := congrArg Utf8.decodeLossy (hbytes.symm.trans hsqueezed)
    rwa [Utf8.decodeLossy_flatMap_utf8EncodeChar, Utf8.decodeLossy_flatMap_utf8EncodeChar] at hsame
  have hafter : splice (unitPlace (Utf8.encode b.text)) Utf16.encode b.units 0 (collapse b.text.toList).replacements =
      Utf16.encode (String.ofList (squeezed b.text.toList)) := by
    rw [Utf16.encode_ofList, ← hresult, ← hunits]
    exact congrArg (splice _ _ · 0 _) hb
  obtain ⟨updates, hall⟩ := applyReplacements_eq (Utf8.encode b.text) b (collapse b.text.toList)
  rw [applyAll_start horder] at hall
  exact ⟨_, hall, hafter⟩

end Restyle.StandIn
