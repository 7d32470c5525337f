import Restyle.Markup.Attribute
import Restyle.Proofs.Markup.Event

/-! # Attributes are read back

An attribute that is written after a blank, with its value between apostrophes, stays within its tag
and is the next attribute that the reader finds.
-/
namespace Restyle.Markup

def written (key value : List Char) : List Char :=
  ' ' :: (key ++ '=' :: '\x27' :: (value ++ ['\x27']))

theorem cutTag_written {key value : List Char} (hk : IsName key) (hv : '\x27' ∉ value) (cs : List Char) :
    cutTag none (written key value ++ cs) = (cutTag none cs).map fun p => (written key value ++ p.1, p.2) := by
  simp only [written, List.cons_append, List.append_assoc, List.nil_append]
  rw [cutTag_plain (by decide), cutTag_name hk, cutTag_plain (by decide), cutTag_quoted hv]
  simp only [Option.map_map]
  rfl

theorem nextAttribute_written {seen : List (List Char)} {key value : List Char} (hk : IsName key)
    (hne : key ≠ []) (hseen : key ∉ seen) (hv : '\x27' ∉ value) (rest : List Char) :
    nextAttribute seen (written key value ++ rest) = .found key value rest := by
  obtain ⟨c, cs, rfl⟩ := List.exists_cons_of_ne_nil hne
  have hstart : (written (c :: cs) value ++ rest).dropWhile isTagBlank =
      c :: (cs ++ '=' :: '\x27' :: (value ++ '\x27' :: rest)) := by
    have hc := (hk c List.mem_cons_self).2.2.2.2
    simp [written, hc, show isTagBlank ' ' = true from rfl]
  have hkey : ∀ x ∈ cs, (x ≠ '=' && !isTagBlank x) = true := by
    intro x hx
    have hplain := hk x (List.mem_cons_of_mem c hx)
    simp [hplain.2.2.2.1, hplain.2.2.2.2]
  have hend : ∀ x ∈ ('=' :: '\x27' :: (value ++ '\x27' :: rest)).head?, (x ≠ '=' && !isTagBlank x) = false := by
    intro x hx
    cases hx
    rfl
  have hspan := span_append hkey hend
  have hblank : ('=' :: '\x27' :: (value ++ '\x27' :: rest)).dropWhile isTagBlank =
      '=' :: '\x27' :: (value ++ '\x27' :: rest) := rfl
  have hquoted : quotedValue? ('\x27' :: (value ++ '\x27' :: rest)) = some (value, rest) := by
    have hdrop : ('\x27' :: (value ++ '\x27' :: rest)).dropWhile isTagBlank =
        '\x27' :: (value ++ '\x27' :: rest) := rfl
    simp only [quotedValue?, hdrop, or_true, if_true]
    exact cutAt_append hv [] rest
  simp only [nextAttribute, hstart, hspan.1, hspan.2, hblank, hquoted, if_neg hseen]

theorem findAttribute_eq {wanted : List Char} {seen : List (List Char)} {cs key value rest : List Char}
    (h : nextAttribute seen cs = .found key value rest) :
    findAttribute wanted seen cs =
      if key = wanted then
        match unescape value with
        | some value => .ok (some value)
        | none => .error .value
      else findAttribute wanted (key :: seen) rest := by
  rw [findAttribute]
  split
  · simp_all
  · simp_all
  · rename_i he
    rw [h] at he
    cases he
    rfl

theorem findAttribute_first {wanted : List Char} {seen : List (List Char)} {value result : List Char}
    (hk : IsName wanted) (hne : wanted ≠ []) (hseen : wanted ∉ seen) (hv : '\x27' ∉ value)
    (hu : unescape value = some result) (rest : List Char) :
    findAttribute wanted seen (written wanted value ++ rest) = .ok (some result) := by
  rw [findAttribute_eq (nextAttribute_written hk hne hseen hv rest), if_pos rfl, hu]

theorem findAttribute_last {wanted : List Char} {seen : List (List Char)} {value result : List Char}
    (hk : IsName wanted) (hne : wanted ≠ []) (hseen : wanted ∉ seen) (hv : '\x27' ∉ value)
    (hu : unescape value = some result) :
    findAttribute wanted seen (written wanted value) = .ok (some result) := by
  have hfirst := findAttribute_first hk hne hseen hv hu []
  rwa [List.append_nil] at hfirst

/-- An attribute with another key is passed over. -/
theorem findAttribute_other {wanted key : List Char} {seen : List (List Char)} {value : List Char}
    (hk : IsName key) (hne : key ≠ []) (hseen : key ∉ seen) (hv : '\x27' ∉ value) (hother : ¬key = wanted)
    (rest : List Char) :
    findAttribute wanted seen (written key value ++ rest) = findAttribute wanted (key :: seen) rest := by
  rw [findAttribute_eq (nextAttribute_written hk hne hseen hv rest), if_neg hother]

/-! ### Lookup as a relation -/

/-- What attributes hold under a key.  The lookup passes over attributes with other keys and sees
nothing of what follows the wanted one. -/
inductive Holds (wanted : List Char) : List (List Char) → List Char → Option (List Char) → Prop
  | absent {seen : List (List Char)} {cs : List Char} (h : nextAttribute seen cs = .done) : Holds wanted seen cs none
  | here {seen : List (List Char)} {cs raw value rest : List Char} (h : nextAttribute seen cs = .found wanted raw rest)
      (hvalue : unescape raw = some value) : Holds wanted seen cs (some value)
  | later {seen : List (List Char)} {cs key raw rest : List Char} {result : Option (List Char)}
      (h : nextAttribute seen cs = .found key raw rest) (hother : key ≠ wanted)
      (hrest : Holds wanted (key :: seen) rest result) : Holds wanted seen cs result

theorem findAttribute_of_holds {wanted : List Char} {seen : List (List Char)} {cs : List Char}
    {result : Option (List Char)} (h : Holds wanted seen cs result) : findAttribute wanted seen cs = .ok result := by
  induction h with
  | absent h =>
    rw [findAttribute]
    split <;> simp_all
  | here h hvalue => rw [findAttribute_eq h, if_pos rfl, hvalue]
  | later h hother hrest ih => rw [findAttribute_eq h, if_neg hother, ih]

theorem holds_of_findAttribute {wanted : List Char} {seen : List (List Char)} {cs : List Char}
    {result : Option (List Char)} (h : findAttribute wanted seen cs = .ok result) : Holds wanted seen cs result := by
  fun_induction findAttribute wanted seen cs with
  | case1 seen cs hdone =>
    cases h
    exact .absent hdone
  | case2 => cases h
  | case3 seen cs raw rest value hvalue hfound =>
    cases h
    exact .here hfound hvalue
  | case4 => cases h
  | case5 seen cs key raw rest hfound hother ih => exact .later hfound hother (ih h)

theorem findAttribute_eq_ok_iff {wanted : List Char} {seen : List (List Char)} {cs : List Char}
    {result : Option (List Char)} : findAttribute wanted seen cs = .ok result ↔ Holds wanted seen cs result :=
  ⟨holds_of_findAttribute, findAttribute_of_holds⟩

end Restyle.Markup
