import Restyle.Markup.Event

/-! # Events of written markup

How the reader takes markup that is written piece by piece: names and quoted values stay within their
tag, text reaches up to the next `<`, and each tag gives its event and the events of what follows it.
-/
namespace Restyle.Markup

/-- Whether no character of a name ends the name, opens a quote or ends the tag. -/
def IsName (name : List Char) : Prop :=
  ∀ c ∈ name, c ≠ '>' ∧ c ≠ '"' ∧ c ≠ '\x27' ∧ c ≠ '=' ∧ isTagBlank c = false

instance (name : List Char) : Decidable (IsName name) :=
  List.decidableBAll _ name

/-! ### Cutting -/

/-- Where a predicate first fails, a list is taken apart. -/
theorem span_append {p : Char → Bool} {front rest : List Char} (hf : ∀ c ∈ front, p c = true)
    (hr : ∀ c ∈ rest.head?, p c = false) :
    (front ++ rest).takeWhile p = front ∧ (front ++ rest).dropWhile p = rest := by
  rw [List.takeWhile_append_of_pos hf, List.dropWhile_append_of_pos hf]
  cases rest with
  | nil => exact ⟨List.append_nil front, rfl⟩
  | cons c rest => simp [hr c rfl]

theorem cutAt_append {c : Char} {before : List Char} (h : c ∉ before) (mark after : List Char) :
    cutAt (c :: mark) (before ++ (c :: mark ++ after)) = some (before, after) := by
  induction before with
  | nil => simp [cutAt]
  | cons x before ih =>
    have hx : ¬c = x := fun hx => h (hx ▸ List.mem_cons_self)
    have hb := ih fun hx => h (List.mem_cons_of_mem x hx)
    rw [List.cons_append] at hb
    simp [cutAt, hx, hb]

theorem cutTag_plain {c : Char} (h : c ≠ '>' ∧ c ≠ '"' ∧ c ≠ '\x27') (cs : List Char) :
    cutTag none (c :: cs) = (cutTag none cs).map fun p => (c :: p.1, p.2) := by
  simp [cutTag, h]

theorem cutTag_name {name : List Char} (h : IsName name) (cs : List Char) :
    cutTag none (name ++ cs) = (cutTag none cs).map fun p => (name ++ p.1, p.2) := by
  induction name with
  | nil => simp
  | cons c name ih =>
    obtain ⟨hgt, hquot, hapos, -⟩ := h c List.mem_cons_self
    rw [List.cons_append, cutTag_plain ⟨hgt, hquot, hapos⟩, ih fun x hx => h x (List.mem_cons_of_mem c hx),
      Option.map_map]
    rfl

theorem cutTag_some {quote : Char} {value : List Char} (h : quote ∉ value) (cs : List Char) :
    cutTag (some quote) (value ++ quote :: cs) = (cutTag none cs).map fun p => (value ++ quote :: p.1, p.2) := by
  induction value with
  | nil => simp [cutTag]
  | cons c value ih =>
    have hc : ¬c = quote := fun hc => h (hc ▸ List.mem_cons_self)
    have hv := ih fun hx => h (List.mem_cons_of_mem c hx)
    simp [cutTag, hc, hv, Function.comp_def]

theorem cutTag_quoted {value : List Char} (h : '\x27' ∉ value) (cs : List Char) :
    cutTag none ('\x27' :: (value ++ '\x27' :: cs)) =
      (cutTag none cs).map fun p => ('\x27' :: (value ++ '\x27' :: p.1), p.2) := by
  rw [cutTag]
  simp [cutTag_some h, Function.comp_def]

theorem cutTag_end (cs : List Char) : cutTag none ('>' :: cs) = some ([], cs) := rfl

/-! ### Events -/

theorem eventsIn_nil (unclosed : List (List Char)) : eventsIn unclosed [] = [.eof] := by
  rw [eventsIn]

/-- Text reaches up to the next `<` or the end. -/
theorem eventsIn_text {unclosed : List (List Char)} {raw rest : List Char} (hne : raw ≠ []) (hlt : '<' ∉ raw)
    (hrest : ∀ c ∈ rest.head?, c = '<') :
    eventsIn unclosed (raw ++ rest) = .text raw :: eventsIn unclosed rest := by
  obtain ⟨c, cs, rfl⟩ := List.exists_cons_of_ne_nil hne
  have hc : ¬c = '<' := fun hc => hlt (hc ▸ List.mem_cons_self)
  have hspan : (cs ++ rest).takeWhile (· ≠ '<') = cs ∧ (cs ++ rest).dropWhile (· ≠ '<') = rest := by
    refine span_append (fun x hx => decide_eq_true fun h => hlt (h ▸ List.mem_cons_of_mem c hx)) fun x hx => ?_
    rw [hrest x hx]
    rfl
  rw [List.cons_append, eventsIn, if_neg hc, hspan.1, hspan.2]

theorem mark?_instruction {body : List Char} (h : body.head? ≠ some '>') :
    mark? ('?' :: body) = (cutAt ['?', '>'] body).map fun p => (.aside, p.2) := by
  cases body with
  | nil => rfl
  | cons c body =>
    have hc : c ≠ '>' := fun hc => h (hc ▸ rfl)
    unfold mark?
    split <;> simp_all

/-- `<?>` is not closed by its own `?`, whatever stands behind it. -/
theorem eventsIn_bare_instruction (unclosed : List (List Char)) (rest : List Char) :
    eventsIn unclosed ('<' :: '?' :: '>' :: rest) = [.malformed] := by
  rw [eventsIn, if_pos rfl]
  split <;> simp_all [mark?]

theorem eventsIn_instruction (unclosed : List (List Char)) {before : List Char} (h : '?' ∉ before)
    (hgt : before.head? ≠ some '>') (rest : List Char) :
    eventsIn unclosed ('<' :: '?' :: (before ++ '?' :: '>' :: rest)) = .aside :: eventsIn unclosed rest := by
  have hcut : cutAt ['?', '>'] (before ++ '?' :: '>' :: rest) = some (before, rest) := cutAt_append h ['>'] rest
  have hhead : (before ++ '?' :: '>' :: rest).head? ≠ some '>' := by
    cases before with
    | nil => simp
    | cons c before => exact hgt
  have hmark : mark? ('?' :: (before ++ '?' :: '>' :: rest)) = some (.aside, rest) := by
    rw [mark?_instruction hhead, hcut]
    rfl
  rw [eventsIn, if_pos rfl]
  split
  · simp_all
  · rename_i after he
    rw [hmark] at he
    cases he
    rfl
  · simp_all
  · simp_all
  · simp_all

theorem mark?_opening {c : Char} (h : c ≠ '!' ∧ c ≠ '?' ∧ c ≠ '/') (cs : List Char) :
    mark? (c :: cs) = (cutTag none (c :: cs)).map fun p => (.opening p.1, p.2) := by
  unfold mark?
  split <;> simp_all

/-- An opening tag, with attributes that start with a blank. -/
theorem eventsIn_opening {unclosed : List (List Char)} {name attributes rest : List Char} (hplain : IsName name)
    (hne : name ≠ []) (hhead : ∀ c ∈ name.head?, c ≠ '!' ∧ c ≠ '?' ∧ c ≠ '/')
    (hblank : ∀ x ∈ attributes.head?, isTagBlank x = true) (hlast : (name ++ attributes).getLast? ≠ some '/')
    (hcut : cutTag none (attributes ++ '>' :: rest) = some (attributes, rest)) :
    eventsIn unclosed ('<' :: (name ++ (attributes ++ '>' :: rest))) =
      .start name attributes :: eventsIn (name :: unclosed) rest := by
  have hmark : mark? (name ++ (attributes ++ '>' :: rest)) = some (.opening (name ++ attributes), rest) := by
    have htag := cutTag_name hplain (attributes ++ '>' :: rest)
    rw [hcut] at htag
    obtain ⟨c, cs, rfl⟩ := List.exists_cons_of_ne_nil hne
    rw [List.cons_append, mark?_opening (hhead c rfl), ← List.cons_append, htag]
    rfl
  have hopening : openingName (name ++ attributes) = (name, attributes) := by
    have hname : ∀ x ∈ name, (!isTagBlank x) = true := by
      intro x hx
      rw [(hplain x hx).2.2.2.2]
      rfl
    have hend : ∀ x ∈ attributes.head?, (!isTagBlank x) = false := by
      intro x hx
      rw [hblank x hx]
      rfl
    have hspan := span_append hname hend
    rw [openingName, hspan.1, hspan.2]
  rw [eventsIn, if_pos rfl]
  split
  · simp_all
  · simp_all
  · simp_all
  · rename_i content after he
    rw [hmark] at he
    cases he
    rw [if_neg hlast, hopening]
  · simp_all

theorem closingName_of_isName {name : List Char} (h : IsName name) : closingName name = name := by
  have hback : name.reverse.dropWhile isTagBlank = name.reverse := by
    cases hr : name.reverse with
    | nil => rfl
    | cons c cs =>
      have hc : c ∈ name := List.mem_reverse.mp (hr ▸ List.mem_cons_self)
      rw [List.dropWhile_cons, (h c hc).2.2.2.2]
      rfl
  rw [closingName, hback, List.reverse_reverse, ite_self]

theorem eventsIn_closing {outer : List (List Char)} {name : List Char} (h : IsName name) (rest : List Char) :
    eventsIn (name :: outer) ('<' :: '/' :: (name ++ '>' :: rest)) = .stop name :: eventsIn outer rest := by
  have hmark : mark? ('/' :: (name ++ '>' :: rest)) = some (.closing name, rest) := by
    have htag := cutTag_name h ('>' :: rest)
    rw [cutTag_end, Option.map_some, List.append_nil] at htag
    simp [mark?, htag]
  rw [eventsIn, if_pos rfl]
  split
  · simp_all
  · simp_all
  · simp_all
  · simp_all
  · rename_i content after he
    rw [hmark] at he
    cases he
    simp only [closingName_of_isName h, if_true]

end Restyle.Markup
