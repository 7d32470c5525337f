import Restyle.Edit.Listing
import Restyle.Proofs.Edit.Order
import Restyle.Proofs.Markup.Attribute
import Restyle.Proofs.Markup.Reference
import Restyle.Proofs.Text.Number

/-! # Listings are read back

The events of a written listing are known exactly: the root with its flag, and for each replacement a
start with its range, its text unless that is empty, and a stop.  The reader gets every replacement
back from these events, so it answers the response that was written, or refuses it where a range does
not fit or starts before the end of the one before it.
-/
namespace Restyle.Response
open Markup

/-! ### Events of a listing -/

def rootAttributes (flag : Bool) : List Char :=
  written "xml:space".toList "preserve".toList ++ written "incomplete_format".toList (toString flag).toList

def rangeAttributes (r : Replacement) : List Char :=
  written "offset".toList (toString r.offset).toList ++ written "length".toList (toString r.length).toList

def textEvents (text : String) : List Event :=
  if text.toList = [] then [] else [.text (escape text.toList)]

def replacementEvents (r : Replacement) : List Event :=
  .start "replacement".toList (rangeAttributes r) ::
    (textEvents r.text ++ [.stop "replacement".toList, .text ['\n']])

def closingEvents (rs : List Replacement) : List Event :=
  rs.flatMap replacementEvents ++ [.stop "replacements".toList, .text ['\n'], .eof]

def listingEvents (r : Response) : List Event :=
  .aside :: .text ['\n'] :: .start "replacements".toList (rootAttributes r.incompleteFormat) :: .text ['\n'] ::
    closingEvents r.replacements

theorem apostrophe_not_mem_toString (n : Nat) : '\x27' ∉ (toString n).toList := by
  intro h
  exact absurd (Text.isDigit_of_mem_toString h) (by decide)

theorem cutTag_rangeAttributes (r : Replacement) (rest : List Char) :
    cutTag none (rangeAttributes r ++ '>' :: rest) = some (rangeAttributes r, rest) := by
  rw [rangeAttributes, List.append_assoc, cutTag_written (by decide) (apostrophe_not_mem_toString _),
    cutTag_written (by decide) (apostrophe_not_mem_toString _), cutTag_end]
  simp

theorem cutTag_rootAttributes (flag : Bool) (rest : List Char) :
    cutTag none (rootAttributes flag ++ '>' :: rest) = some (rootAttributes flag, rest) := by
  have hflag : '\x27' ∉ (toString flag).toList := by
    cases flag <;> decide
  rw [rootAttributes, List.append_assoc, cutTag_written (by decide) (by decide), cutTag_written (by decide) hflag,
    cutTag_end]
  simp

theorem getLast?_written (front key value : List Char) : (front ++ written key value).getLast? = some '\x27' := by
  simp [written, List.getLast?_append, List.getLast?_cons]

theorem eventsIn_line (unclosed : List (List Char)) {rest : List Char} (hrest : ∀ c ∈ rest.head?, c = '<') :
    eventsIn unclosed ('\n' :: rest) = .text ['\n'] :: eventsIn unclosed rest := by
  have hline : eventsIn unclosed (['\n'] ++ rest) = .text ['\n'] :: eventsIn unclosed rest :=
    eventsIn_text (by decide) (by decide) hrest
  exact hline

theorem eventsIn_text_escape (unclosed : List (List Char)) (text : String) {rest : List Char}
    (hrest : ∀ c ∈ rest.head?, c = '<') :
    eventsIn unclosed (escape text.toList ++ rest) = textEvents text ++ eventsIn unclosed rest := by
  unfold textEvents
  split
  · rename_i h
    rw [h]
    rfl
  · rename_i h
    have hne : escape text.toList ≠ [] := by
      intro he
      have hu := unescape_escape text.toList
      rw [he] at hu
      exact h (Option.some.inj hu).symm
    exact eventsIn_text hne (lt_not_mem_escape _) hrest

theorem renderReplacement_append (r : Replacement) (rest : List Char) :
    renderReplacement r ++ rest = '<' :: ("replacement".toList ++ (rangeAttributes r ++ '>' ::
      (escape r.text.toList ++ '<' :: '/' :: ("replacement".toList ++ '>' :: ('\n' :: rest))))) := by
  unfold renderReplacement rangeAttributes written
  simp only [String.reduceToList]
  simp only [List.cons_append, List.nil_append, List.append_assoc]

theorem eventsIn_renderReplacement (unclosed : List (List Char)) (r : Replacement) {rest : List Char}
    (hrest : ∀ c ∈ rest.head?, c = '<') :
    eventsIn unclosed (renderReplacement r ++ rest) = replacementEvents r ++ eventsIn unclosed rest := by
  have hlast : ("replacement".toList ++ rangeAttributes r).getLast? ≠ some '/' := by
    rw [rangeAttributes, ← List.append_assoc, getLast?_written]
    decide
  rw [renderReplacement_append, eventsIn_opening (by decide) (by decide) (fun c hc => by cases hc; decide)
      (fun x hx => by cases hx; rfl) hlast (cutTag_rangeAttributes r _),
    eventsIn_text_escape _ _ (fun x hx => by cases hx; rfl), eventsIn_closing (by decide)]
  have hline : eventsIn unclosed ('\n' :: rest) = .text ['\n'] :: eventsIn unclosed rest :=
    eventsIn_line unclosed hrest
  simp [replacementEvents, hline]

theorem head?_flatMap_renderReplacement (rs : List Replacement) {rest : List Char}
    (hrest : ∀ c ∈ rest.head?, c = '<') : ∀ c ∈ (rs.flatMap renderReplacement ++ rest).head?, c = '<' := by
  intro c hc
  cases rs with
  | nil => exact hrest c hc
  | cons r rs =>
    rw [List.flatMap_cons, List.append_assoc, renderReplacement_append] at hc
    cases hc
    rfl

theorem eventsIn_flatMap_renderReplacement (unclosed : List (List Char)) (rs : List Replacement) {rest : List Char}
    (hrest : ∀ c ∈ rest.head?, c = '<') :
    eventsIn unclosed (rs.flatMap renderReplacement ++ rest) =
      rs.flatMap replacementEvents ++ eventsIn unclosed rest := by
  induction rs with
  | nil => rfl
  | cons r rs ih =>
    rw [List.flatMap_cons, List.append_assoc,
      eventsIn_renderReplacement unclosed r (head?_flatMap_renderReplacement rs hrest), ih, List.flatMap_cons,
      List.append_assoc]

theorem toList_render (r : Response) : r.render.toList =
    '<' :: '?' :: ("xml version='1.0'".toList ++ '?' :: '>' :: ('\n' :: ('<' :: ("replacements".toList ++
      (rootAttributes r.incompleteFormat ++ '>' :: ('\n' :: (r.replacements.flatMap renderReplacement ++
        '<' :: '/' :: ("replacements".toList ++ '>' :: ['\n'])))))))) := by
  unfold render rootAttributes written
  rw [String.toList_ofList]
  simp only [String.reduceToList]
  simp only [List.cons_append, List.nil_append, List.append_assoc]

theorem events_render (r : Response) : events r.render.toList = listingEvents r := by
  have hlast : ("replacements".toList ++ rootAttributes r.incompleteFormat).getLast? ≠ some '/' := by
    rw [rootAttributes, ← List.append_assoc, getLast?_written]
    decide
  have hstart : events r.render.toList = eventsIn [] r.render.toList := by
    rw [toList_render]
    rfl
  rw [hstart, toList_render, eventsIn_instruction [] (by decide) (by decide), eventsIn_line [] (by intro c hc; cases hc; rfl),
    eventsIn_opening (by decide) (by decide) (fun c hc => by cases hc; decide) (fun x hx => by cases hx; rfl) hlast
      (cutTag_rootAttributes r.incompleteFormat _),
    eventsIn_line _ (head?_flatMap_renderReplacement _ (by intro c hc; cases hc; rfl)),
    eventsIn_flatMap_renderReplacement _ _ (by intro c hc; cases hc; rfl), eventsIn_closing (by decide),
    eventsIn_line [] (by intro c hc; cases hc), eventsIn_nil]
  rfl

/-! ### Reading the attributes -/

theorem readAttribute_eq_ok {name : String} {attributes : List Char} {value : Option (List Char)}
    (h : findAttribute name.toList [] attributes = .ok value) : readAttribute name attributes = .ok value := by
  rw [readAttribute, attribute?, h]
  rfl

theorem readNumber_eq {name : String} {attributes : List Char} {n : Nat}
    (h : findAttribute name.toList [] attributes = .ok (some (toString n).toList)) :
    readNumber name attributes = if n ≤ maxWord then .ok n else .error (.invalidAttribute name (toString n)) := by
  simp only [readNumber, readAttribute_eq_ok h, bind, Except.bind, Text.trimChars_toString, Text.readWord_toString n]
  split <;> rename_i hn
  · split at hn
    · cases hn
      rw [if_pos ‹_›]
      rfl
    · cases hn
  · split at hn
    · cases hn
    · rw [if_neg ‹_›, String.ofList_toList]
      rfl

theorem unescape_toString (n : Nat) : unescape (toString n).toList = some (toString n).toList := by
  refine unescape_of_amp_not_mem fun h => ?_
  exact absurd (Text.isDigit_of_mem_toString h) (by decide)

theorem findOffset_rangeAttributes (r : Replacement) :
    findAttribute "offset".toList [] (rangeAttributes r) = .ok (some (toString r.offset).toList) :=
  findAttribute_first (by decide) (by decide) List.not_mem_nil (apostrophe_not_mem_toString _) (unescape_toString _) _

theorem findLength_rangeAttributes (r : Replacement) :
    findAttribute "length".toList [] (rangeAttributes r) = .ok (some (toString r.length).toList) := by
  rw [rangeAttributes, findAttribute_other (by decide) (by decide) List.not_mem_nil (apostrophe_not_mem_toString _)
    (by decide)]
  exact findAttribute_last (by decide) (by decide) (by decide) (apostrophe_not_mem_toString r.length)
    (unescape_toString r.length)

/-- The range of a written replacement is read back if its end is a number of 64 bits. -/
theorem readRange_eq_ok {r : Replacement} (h : r.offset + r.length ≤ maxWord) :
    readRange (rangeAttributes r) = .ok (r.offset, r.length) := by
  simp only [readRange, readNumber_eq (findOffset_rangeAttributes r), readNumber_eq (findLength_rangeAttributes r),
    bind, Except.bind, if_pos (Nat.le_trans (Nat.le_add_right _ _) h), if_pos (Nat.le_trans (Nat.le_add_left _ _) h),
    if_neg (Nat.not_lt.mpr h)]
  rfl

theorem readRange_eq_error {r : Replacement} (h : maxWord < r.offset + r.length) :
    ∃ fault, readRange (rangeAttributes r) = .error fault := by
  simp only [readRange, readNumber_eq (findOffset_rangeAttributes r), readNumber_eq (findLength_rangeAttributes r),
    bind, Except.bind]
  by_cases ho : r.offset ≤ maxWord
  · by_cases hl : r.length ≤ maxWord
    · exact ⟨_, by rw [if_pos ho, if_pos hl]; exact if_pos h⟩
    · exact ⟨_, by rw [if_pos ho, if_neg hl]⟩
  · exact ⟨_, by rw [if_neg ho]⟩

/-- The flag of a written root is read back. -/
theorem readFlag_rootAttributes (flag : Bool) : readFlag (rootAttributes flag) = .ok flag := by
  have hvalue : '\x27' ∉ (toString flag).toList ∧ '&' ∉ (toString flag).toList ∧
      Text.trimChars (toString flag).toList = (toString flag).toList := by
    cases flag <;> decide
  have hfind : findAttribute "incomplete_format".toList [] (rootAttributes flag) =
      .ok (some (toString flag).toList) := by
    rw [rootAttributes, findAttribute_other (by decide) (by decide) List.not_mem_nil (by decide) (by decide)]
    exact findAttribute_last (by decide) (by decide) (by decide) hvalue.1 (unescape_of_amp_not_mem hvalue.2.1)
  simp only [readFlag, readAttribute_eq_ok hfind, bind, Except.bind, hvalue.2.2]
  cases flag <;> rfl

/-! ### Reading the events -/

theorem ofEventsFrom_cons (p : Progress) {e : Event} (he : e ≠ .eof) (rest : List Event) :
    ofEventsFrom p (e :: rest) = (step p e).bind (ofEventsFrom · rest) := by
  cases e with
  | eof => exact absurd rfl he
  | _ => rfl

theorem ofEventsFrom_line {p : Progress} (h : p.state = .beforeRoot ∨ p.state = .inRoot ∨ p.state = .afterRoot)
    (rest : List Event) : ofEventsFrom p (.text ['\n'] :: rest) = ofEventsFrom p rest := by
  obtain ⟨state, flag, read⟩ := p
  rcases h with rfl | rfl | rfl <;> rfl

/-- The text of a replacement is read back. -/
theorem ofEventsFrom_textEvents (offset length : Nat) (flag : Bool) (read : List Replacement) (text : String)
    (rest : List Event) :
    ofEventsFrom ⟨.inReplacement offset length [], flag, read⟩ (textEvents text ++ rest) =
      ofEventsFrom ⟨.inReplacement offset length text.toList, flag, read⟩ rest := by
  unfold textEvents
  split
  · rename_i h
    rw [h]
    rfl
  · rw [List.singleton_append, ofEventsFrom_cons _ (by simp)]
    simp only [step, unescape_escape, List.nil_append]
    rfl

theorem ofEventsFrom_replacementEvents (r : Replacement) (flag : Bool) (read : List Replacement)
    (rest : List Event) :
    ofEventsFrom ⟨.inRoot, flag, read⟩ (replacementEvents r ++ rest) =
      ((readRange (rangeAttributes r)).mapError .inl).bind fun range =>
        ((push read ⟨range.1, range.2, r.text⟩).mapError .inl).bind fun read =>
          ofEventsFrom ⟨.inRoot, flag, read⟩ rest := by
  rw [replacementEvents, List.cons_append, ofEventsFrom_cons _ (by simp)]
  simp only [step, if_true]
  cases readRange (rangeAttributes r) with
  | error fault => rfl
  | ok range =>
    change ofEventsFrom ⟨.inReplacement range.1 range.2 [], flag, read⟩ (_ ++ _) = _
    rw [List.append_assoc, ofEventsFrom_textEvents, List.cons_append, ofEventsFrom_cons _ (by simp)]
    simp only [step, String.ofList_toList, Except.mapError, Except.bind]
    cases push read ⟨range.1, range.2, r.text⟩ with
    | error fault => rfl
    | ok read => exact ofEventsFrom_line (Or.inr (Or.inl rfl)) rest

theorem push_eq_ok {read : List Replacement} {r : Replacement} (h : ∀ p ∈ read.head?, p.stop ≤ r.offset) :
    push read r = .ok (r :: read) := by
  cases read with
  | nil => rfl
  | cons p read => rw [push, if_neg (Nat.not_lt.mpr (h p rfl))]

theorem stop_le_of_push {read after : List Replacement} {r : Replacement} (h : push read r = .ok after) :
    ∀ p ∈ read.head?, p.stop ≤ r.offset := by
  rintro p hp
  obtain ⟨rest, rfl⟩ := List.head?_eq_some_iff.mp hp
  by_cases hlt : r.offset < p.stop
  · rw [push, if_pos hlt] at h
    cases h
  · exact Nat.not_lt.mp hlt

theorem isChain_head?_append {read : List Replacement} {r : Replacement} {rs : List Replacement} :
    (read.head?.toList ++ r :: rs).IsChain Replacement.EndsBefore ↔
      (∀ p ∈ read.head?, p.EndsBefore r) ∧ (r :: rs).IsChain Replacement.EndsBefore := by
  cases read with
  | nil => simp
  | cons p read => simp [List.isChain_cons_cons]

variable {flag : Bool} {read rs : List Replacement}

theorem ofEventsFrom_closingEvents (hread : ∀ p ∈ read.head?, p.offset + p.length ≤ maxWord)
    (hfit : ∀ x ∈ rs, x.offset + x.length ≤ maxWord)
    (hchain : (read.head?.toList ++ rs).IsChain Replacement.EndsBefore) :
    ofEventsFrom ⟨.inRoot, flag, read⟩ (closingEvents rs) = .ok ⟨read.reverse ++ rs, flag⟩ := by
  induction rs generalizing read with
  | nil => rw [List.append_nil]; rfl
  | cons r rs ih =>
    obtain ⟨hp, hrest⟩ := isChain_head?_append.mp hchain
    have hpush : push read r = .ok (r :: read) := by
      refine push_eq_ok fun p hm => ?_
      rw [Replacement.stop_eq (hread p hm)]
      exact hp p hm
    have hr := hfit r List.mem_cons_self
    rw [closingEvents, List.flatMap_cons, List.append_assoc, ofEventsFrom_replacementEvents, readRange_eq_ok hr]
    simp only [Except.mapError, Except.bind, hpush]
    refine Eq.trans (ih (fun p hm => ?_) (fun x hx => hfit x (List.mem_cons_of_mem r hx)) hrest) ?_
    · cases hm
      exact hr
    · rw [List.reverse_cons, List.append_assoc]
      rfl

/-- A listing that is read has ranges that fit and follow each other. -/
theorem fit_of_ofEventsFrom {response : Response} (hread : ∀ p ∈ read.head?, p.offset + p.length ≤ maxWord)
    (h : ofEventsFrom ⟨.inRoot, flag, read⟩ (closingEvents rs) = .ok response) :
    (∀ x ∈ rs, x.offset + x.length ≤ maxWord) ∧ (read.head?.toList ++ rs).IsChain Replacement.EndsBefore := by
  induction rs generalizing read with
  | nil =>
    refine ⟨by simp, ?_⟩
    cases read with
    | nil => exact List.isChain_nil
    | cons p read => exact List.isChain_singleton p
  | cons r rs ih =>
    rw [closingEvents, List.flatMap_cons, List.append_assoc, ofEventsFrom_replacementEvents] at h
    by_cases hr : r.offset + r.length ≤ maxWord
    · rw [readRange_eq_ok hr] at h
      cases hpush : push read r with
      | error fault =>
        simp only [Except.mapError, Except.bind, hpush] at h
        cases h
      | ok after =>
        have hstop := stop_le_of_push hpush
        simp only [Except.mapError, Except.bind, push_eq_ok hstop] at h
        have hlast : ∀ p ∈ (r :: read).head?, p.offset + p.length ≤ maxWord := by
          intro p hm
          cases hm
          exact hr
        obtain ⟨hfit, hchain⟩ := ih hlast h
        refine ⟨List.forall_mem_cons.mpr ⟨hr, hfit⟩, isChain_head?_append.mpr ⟨fun p hm => ?_, hchain⟩⟩
        have hp := hstop p hm
        rw [Replacement.stop_eq (hread p hm)] at hp
        exact hp
    · obtain ⟨fault, hf⟩ := readRange_eq_error (Nat.not_le.mp hr)
      rw [hf] at h
      cases h

/-! ### The round trip -/

theorem ofEvents_listingEvents (r : Response) :
    ofEvents (listingEvents r) = ofEventsFrom ⟨.inRoot, r.incompleteFormat, []⟩ (closingEvents r.replacements) := by
  have hstep (rest : List Event) :
      ofEventsFrom {} (.start "replacements".toList (rootAttributes r.incompleteFormat) :: rest) =
        ofEventsFrom ⟨.inRoot, r.incompleteFormat, []⟩ rest := by
    rw [ofEventsFrom_cons _ (by simp)]
    simp only [step, if_true, readFlag_rootAttributes]
    rfl
  rw [ofEvents, listingEvents, ofEventsFrom_cons _ (by simp)]
  change ofEventsFrom {} _ = _
  rw [ofEventsFrom_line (Or.inl rfl), hstep, ofEventsFrom_line (Or.inr (Or.inl rfl))]

theorem decode_of_fits {r : Response} (hfit : ∀ x ∈ r.replacements, x.offset + x.length ≤ maxWord)
    (hchain : r.replacements.IsChain Replacement.EndsBefore) : decode r.render = .ok r := by
  have hblank : ¬Text.isBlankText r.render = true := by
    rw [Text.isBlankText, toList_render]
    simp [show Text.isBlank '<' = false from rfl]
  have hread : ofEventsFrom ⟨.inRoot, r.incompleteFormat, []⟩ (closingEvents r.replacements) =
      .ok ⟨[].reverse ++ r.replacements, r.incompleteFormat⟩ := ofEventsFrom_closingEvents (by simp) hfit hchain
  rw [decode, if_neg hblank, events_render, ofEvents_listingEvents, hread]
  rfl

/-- A response that is written as a listing is read back if each of its ranges ends at a number of 64
bits and each of its replacements starts where the one before it ends, or behind; every other listing
is refused. -/
theorem decode_render (r : Response) :
    if (∀ x ∈ r.replacements, x.offset + x.length ≤ maxWord) ∧ r.replacements.IsChain Replacement.EndsBefore
    then decode r.render = .ok r else ∃ fault, decode r.render = .error fault := by
  have hblank : ¬Text.isBlankText r.render = true := by
    rw [Text.isBlankText, toList_render]
    simp [show Text.isBlank '<' = false from rfl]
  rw [decode, if_neg hblank, events_render, ofEvents_listingEvents]
  split
  · rename_i h
    have hread : ofEventsFrom ⟨.inRoot, r.incompleteFormat, []⟩ (closingEvents r.replacements) =
        .ok ⟨[].reverse ++ r.replacements, r.incompleteFormat⟩ :=
      ofEventsFrom_closingEvents (by simp) h.1 h.2
    rw [hread]
    rfl
  · rename_i h
    cases hread : ofEventsFrom ⟨.inRoot, r.incompleteFormat, []⟩ (closingEvents r.replacements) with
    | error fault => exact ⟨_, rfl⟩
    | ok response => exact absurd (fit_of_ofEventsFrom (by simp) hread) h

end Restyle.Response
