import Restyle.Proofs.Edit.Grammar

/-! # The reader and the grammar

Each event that the reader takes is one that the grammar allows, so a run of the reader to the end cuts
the events into the pieces of a listing; and the pieces of a listing take the reader from piece to piece.
-/
namespace Restyle.Response
open Markup

/-! ### Events that carry nothing -/

theorem ofEventsFrom_of_takes {p q : Progress} {e : Event} (h : Takes p e q) (he : e ≠ .eof) (es : List Event) :
    ofEventsFrom p (e :: es) = ofEventsFrom q es := by
  rw [ofEventsFrom_cons p he, step_of_takes h]
  rfl

/-- Events that carry nothing make no difference to the reader. -/
theorem ofEventsFrom_significant (p : Progress) (es : List Event) :
    ofEventsFrom p (significant p.state.unclosed es) = ofEventsFrom p es := by
  induction es generalizing p with
  | nil => rfl
  | cons e es ih =>
    rw [significant]
    split
    · rename_i h
      have he : e ≠ .eof := by
        rintro rfl
        cases h
      rw [openAfter_of_isIgnored h, ofEventsFrom_of_takes (.ignored h) he, ih]
    · by_cases he : e = .eof
      · subst he
        rfl
      · rw [ofEventsFrom_cons p he, ofEventsFrom_cons p he]
        cases hstep : step p e with
        | error fault => rfl
        | ok q =>
          have hq := (takes_of_step hstep).unclosed
          rw [← hq]
          exact ih q

/-! ### Accepted listings are in the grammar -/

theorem exists_takes {p : Progress} {e : Event} {es : List Event} {r : Response} (he : e ≠ .eof)
    (h : ofEventsFrom p (e :: es) = .ok r) : ∃ q, Takes p e q ∧ ofEventsFrom q es = .ok r := by
  rw [ofEventsFrom_cons p he] at h
  cases hstep : step p e with
  | error fault =>
    rw [hstep] at h
    cases h
  | ok q =>
    rw [hstep] at h
    exact ⟨q, takes_of_step hstep, h⟩

theorem Takes.continues {p q : Progress} {e : Event} (h : Takes p e q) : e ≠ .eof ∧ e ≠ .malformed := by
  constructor
  · rintro rfl
    cases h with
    | ignored h => cases h
  · rintro rfl
    cases h with
    | ignored h => cases h

/-- After its root a listing holds nothing more. -/
theorem significant_of_afterRoot {flag : Bool} {read : List Replacement} {es : List Event} {r : Response}
    (hnested : Nested [] es) (h : ofEventsFrom ⟨.afterRoot, flag, read⟩ es = .ok r) :
    significant [] es = [.eof] ∧ r = ⟨read.reverse, flag⟩ := by
  induction es with
  | nil => cases hnested
  | cons e es ih =>
    by_cases he : e = .eof
    · subst he
      cases hnested with
      | eof =>
        cases h
        exact ⟨rfl, rfl⟩
      | other continues rest => exact absurd rfl continues.1
    · obtain ⟨q, htakes, hrest⟩ := exists_takes he h
      have htail := hnested.tail htakes.continues
      cases htakes with
      | ignored hignored =>
        dsimp only [ListingState.unclosed] at hignored
        rw [openAfter_of_isIgnored hignored] at htail
        rw [significant_of_isIgnored hignored]
        exact ih htail hrest

/-- The body of a replacement, up to the closing tag of the replacement. -/
theorem exists_body {offset length : Nat} {text : List Char} {flag : Bool} {read : List Replacement}
    {es : List Event} {r : Response} (hnested : Nested ["replacement".toList, "replacements".toList] es)
    (h : ofEventsFrom ⟨.inReplacement offset length text, flag, read⟩ es = .ok r) :
    ∃ body value after rest, significant ["replacement".toList, "replacements".toList] es =
        body ++ .stop "replacement".toList :: significant ["replacements".toList] rest ∧ IsBody body value ∧
      push read ⟨offset, length, String.ofList (text ++ value)⟩ = .ok after ∧ rest.length < es.length ∧
      Nested ["replacements".toList] rest ∧ ofEventsFrom ⟨.inRoot, flag, after⟩ rest = .ok r := by
  induction es generalizing text with
  | nil => cases hnested
  | cons e es ih =>
    by_cases he : e = .eof
    · subst he
      cases h
    · obtain ⟨q, htakes, hrest⟩ := exists_takes he h
      have htail := hnested.tail htakes.continues
      cases htakes with
      | ignored hignored =>
        dsimp only [ListingState.unclosed] at hignored
        rw [openAfter_of_isIgnored hignored] at htail
        rw [significant_of_isIgnored hignored]
        obtain ⟨body, value, after, rest, hbody, his, hpush, hlt, hend⟩ := ih htail hrest
        exact ⟨body, value, after, rest, hbody, his, hpush, Nat.lt_succ_of_lt hlt, hend⟩
      | text hvalue =>
        rename_i raw piece
        obtain ⟨body, value, after, rest, hbody, his, hpush, hlt, hend⟩ := ih htail hrest
        refine ⟨.text raw :: body, piece ++ value, after, rest, ?_, .text hvalue his, ?_, Nat.lt_succ_of_lt hlt,
          hend⟩
        · rw [significant_of_not_isIgnored (isIgnored_text_of_mem List.mem_cons_self raw), List.cons_append, ← hbody]
          rfl
        · rwa [← List.append_assoc]
      | cdata =>
        rename_i raw
        obtain ⟨body, value, after, rest, hbody, his, hpush, hlt, hend⟩ := ih htail hrest
        refine ⟨.cdata raw :: body, raw ++ value, after, rest, ?_, .cdata his, ?_, Nat.lt_succ_of_lt hlt, hend⟩
        · rw [significant_of_not_isIgnored rfl, List.cons_append, ← hbody]
          rfl
        · rwa [← List.append_assoc]
      | closeElement hpush =>
        obtain ⟨rfl, hout⟩ := hnested.eq_of_stop
        refine ⟨[], [], _, es, rfl, .nil, ?_, Nat.lt_succ_self _, hout, hrest⟩
        rwa [List.append_nil]

theorem push_eq_cons {read after : List Replacement} {x : Replacement} (h : push read x = .ok after) :
    after = x :: read := by
  have hpush := push_eq_ok (stop_le_of_push h)
  rw [h] at hpush
  exact Except.ok.inj hpush

/-- A replacement that is accepted behind others whose ends fit lies behind them. -/
theorem endsBefore_of_push {read after : List Replacement} {x : Replacement} (h : push read x = .ok after)
    (hread : ∀ p ∈ read.head?, p.offset + p.length ≤ maxWord) : ∀ p ∈ read.head?, p.EndsBefore x := by
  intro p hp
  have hstop := stop_le_of_push h p hp
  rwa [Replacement.stop_eq (hread p hp)] at hstop

/-- What the root holds, and the replacements that are read from it behind those of `read`. -/
theorem exists_elements {flag : Bool} {read : List Replacement} {es : List Event} {r : Response}
    (hnested : Nested ["replacements".toList] es) (h : ofEventsFrom ⟨.inRoot, flag, read⟩ es = .ok r)
    (hread : ∀ x ∈ read.head?, x.offset + x.length ≤ maxWord) :
    ∃ elements rs,
      significant ["replacements".toList] es = elements.flatten ++ [.stop "replacements".toList, .eof] ∧
      List.Forall₂ IsElement elements rs ∧ (read.head?.toList ++ rs).IsChain Replacement.EndsBefore ∧
      r = ⟨read.reverse ++ rs, flag⟩ := by
  -- a replacement and its body are taken in one go, so the induction is on the number of events left
  induction hn : es.length using Nat.strongRecOn generalizing es read with
  | ind n ih =>
  cases es with
  | nil => cases hnested
  | cons e es =>
    by_cases he : e = .eof
    · subst he
      cases h
    · obtain ⟨q, htakes, hrest⟩ := exists_takes he h
      have htail := hnested.tail htakes.continues
      cases htakes with
      | ignored hignored =>
        dsimp only [ListingState.unclosed] at hignored
        rw [openAfter_of_isIgnored hignored] at htail
        rw [significant_of_isIgnored hignored]
        exact ih es.length (by simp_all; omega) htail hrest hread rfl
      | closeRoot =>
        obtain ⟨rfl, hout⟩ := hnested.eq_of_stop
        obtain ⟨hafter, rfl⟩ := significant_of_afterRoot hout hrest
        refine ⟨[], [], ?_, .nil, ?_, ?_⟩
        · rw [significant_of_not_isIgnored rfl, Event.openAfter, List.tail_cons, hafter]
          rfl
        · cases read <;> simp
        · simp
      | emptyElement hrange hpush =>
        rename_i attributes offset length after
        have hbehind := endsBefore_of_push hpush hread
        obtain rfl := push_eq_cons hpush
        obtain ⟨elements, rs, hes, helements, hchain, rfl⟩ :=
          ih es.length (by simp_all; omega) htail hrest (by simpa using hrange.2.2) rfl
        refine ⟨[.empty "replacement".toList attributes] :: elements, ⟨offset, length, ""⟩ :: rs, ?_,
          .cons (.empty hrange) helements, ?_, ?_⟩
        · rw [significant_of_not_isIgnored rfl, List.flatten_cons, List.append_assoc, ← hes]
          rfl
        · exact isChain_head?_append.mpr ⟨hbehind, hchain⟩
        · simp
      | openElement hrange =>
        rename_i attributes offset length
        obtain ⟨body, value, after, rest, hbody, his, hpush, hlt, hin, hend⟩ := exists_body htail hrest
        have hbehind := endsBefore_of_push hpush hread
        obtain rfl := push_eq_cons hpush
        obtain ⟨elements, rs, hes, helements, hchain, rfl⟩ :=
          ih rest.length (by simp_all; omega) hin hend (by simpa using hrange.2.2) rfl
        refine ⟨(.start "replacement".toList attributes :: (body ++ [.stop "replacement".toList])) :: elements,
          ⟨offset, length, String.ofList value⟩ :: rs, ?_, .cons (.full hrange his) helements, ?_, ?_⟩
        · rw [significant_of_not_isIgnored rfl, Event.openAfter, hbody, List.flatten_cons, hes]
          simp
        · exact isChain_head?_append.mpr ⟨hbehind, hchain⟩
        · simp

/-- What the reader accepts is a listing of what it answers. -/
theorem isListing_of_ofEvents {flag : Bool} {es : List Event} {r : Response} (hnested : Nested [] es)
    (h : ofEventsFrom ⟨.beforeRoot, flag, []⟩ es = .ok r) : IsListing (significant [] es) r := by
  induction es with
  | nil => cases hnested
  | cons e es ih =>
    by_cases he : e = .eof
    · subst he
      cases h
    · obtain ⟨q, htakes, hrest⟩ := exists_takes he h
      have htail := hnested.tail htakes.continues
      cases htakes with
      | ignored hignored =>
        dsimp only [ListingState.unclosed] at hignored
        rw [openAfter_of_isIgnored hignored] at htail
        rw [significant_of_isIgnored hignored]
        exact ih htail hrest
      | emptyRoot hflag =>
        obtain ⟨hafter, rfl⟩ := significant_of_afterRoot htail hrest
        rw [significant_of_not_isIgnored rfl]
        change IsListing (_ :: significant [] es) _
        rw [hafter]
        exact .empty hflag
      | openRoot hflag =>
        obtain ⟨elements, rs, hes, helements, hchain, rfl⟩ := exists_elements htail hrest (by simp)
        rw [significant_of_not_isIgnored rfl, Event.openAfter, hes]
        exact .full hflag helements hchain

/-! ### Listings of the grammar are accepted -/

theorem ofEventsFrom_of_isBody {body : List Event} {value : List Char} (h : IsBody body value) (offset length : Nat)
    (text : List Char) (flag : Bool) (read : List Replacement) (rest : List Event) :
    ofEventsFrom ⟨.inReplacement offset length text, flag, read⟩ (body ++ rest) =
      ofEventsFrom ⟨.inReplacement offset length (text ++ value), flag, read⟩ rest := by
  induction h generalizing text with
  | nil => simp
  | text hvalue _ ih =>
    rw [List.cons_append, ofEventsFrom_of_takes (.text hvalue) (by simp), ih, List.append_assoc]
  | cdata _ ih =>
    rw [List.cons_append, ofEventsFrom_of_takes .cdata (by simp), ih, List.append_assoc]

theorem ofEventsFrom_of_isElement {element : List Event} {x : Replacement} (h : IsElement element x) {flag : Bool}
    {read : List Replacement} (hread : ∀ p ∈ read.head?, p.stop ≤ x.offset) (rest : List Event) :
    ofEventsFrom ⟨.inRoot, flag, read⟩ (element ++ rest) = ofEventsFrom ⟨.inRoot, flag, x :: read⟩ rest := by
  have hpush := push_eq_ok hread
  cases h with
  | empty hrange =>
    rw [List.singleton_append, ofEventsFrom_of_takes (.emptyElement hrange hpush) (by simp)]
  | full hrange hbody =>
    rw [List.cons_append, ofEventsFrom_of_takes (.openElement hrange) (by simp), List.append_assoc,
      ofEventsFrom_of_isBody hbody, List.nil_append, List.singleton_append,
      ofEventsFrom_of_takes (.closeElement hpush) (by simp)]

theorem IsElement.fits {element : List Event} {x : Replacement} (h : IsElement element x) :
    x.offset + x.length ≤ maxWord := by
  cases h with
  | empty hrange => exact hrange.2.2
  | full hrange _ => exact hrange.2.2

theorem ofEventsFrom_of_isElements {elements : List (List Event)} {rs : List Replacement}
    (h : List.Forall₂ IsElement elements rs) {flag : Bool} {read : List Replacement}
    (hread : ∀ x ∈ read.head?, x.offset + x.length ≤ maxWord)
    (hchain : (read.head?.toList ++ rs).IsChain Replacement.EndsBefore) (rest : List Event) :
    ofEventsFrom ⟨.inRoot, flag, read⟩ (elements.flatten ++ rest) =
      ofEventsFrom ⟨.inRoot, flag, rs.reverse ++ read⟩ rest := by
  induction h generalizing read with
  | nil => rfl
  | @cons element x elements rs helement _ ih =>
    obtain ⟨hfirst, hlater⟩ := isChain_head?_append.mp hchain
    have hstop : ∀ p ∈ read.head?, p.stop ≤ x.offset := by
      intro p hp
      rw [Replacement.stop_eq (hread p hp)]
      exact hfirst p hp
    have hfits : ∀ p ∈ (x :: read).head?, p.offset + p.length ≤ maxWord := by
      simpa using helement.fits
    rw [List.flatten_cons, List.append_assoc, ofEventsFrom_of_isElement helement hstop, ih hfits hlater]
    simp

theorem ofEvents_of_isListing {es : List Event} {r : Response} (h : IsListing es r) : ofEvents es = .ok r := by
  cases h with
  | empty hflag =>
    rw [ofEvents, ofEventsFrom_of_takes (.emptyRoot hflag) (by simp)]
    rfl
  | full hflag helements hordered =>
    rw [ofEvents, ofEventsFrom_of_takes (.openRoot hflag) (by simp),
      ofEventsFrom_of_isElements helements (by simp) (by simpa using hordered), List.append_nil,
      ofEventsFrom_of_takes .closeRoot (by simp)]
    simp [ofEventsFrom]

/-! ### The reader and the grammar -/

theorem ofEvents_eq_ok_iff {es : List Event} {r : Response} (hnested : Nested [] es) :
    ofEvents es = .ok r ↔ IsListing (significant [] es) r := by
  constructor
  · exact isListing_of_ofEvents hnested
  · intro h
    have hread := ofEvents_of_isListing h
    exact (ofEventsFrom_significant {} es).symm.trans hread

/-- An output decodes to a response exactly when it is blank and the response is the empty one, or when
its events that carry something are a listing of the response. -/
theorem decode_eq_ok_iff (output : String) (r : Response) :
    decode output = .ok r ↔
      if Text.isBlankText output then r = {} else IsListing (significant [] (events output.toList)) r := by
  rw [decode]
  split
  · exact ⟨fun h => (Except.ok.inj h).symm, fun h => by rw [h]⟩
  · rw [← ofEvents_eq_ok_iff (nested_events _)]
    cases ofEvents (events output.toList) with
    | error fault => simp [Except.mapError]
    | ok response => simp [Except.mapError]

/-- An instruction needs a `?` of its own before its `>`. -/
theorem decode_bare_instruction (rest : String) : decode ("<?>" ++ rest) = .error .malformedMarkup := by
  have hevents : events ("<?>" ++ rest).toList = [.malformed] := by
    rw [String.toList_append]
    exact eventsIn_bare_instruction [] rest.toList
  have hblank : Text.isBlankText ("<?>" ++ rest) = false := by
    rw [Text.isBlankText, String.toList_append]
    rfl
  rw [decode, hblank, hevents]
  rfl

example : decode "<?>?><replacements/>" = .error .malformedMarkup :=
  decode_bare_instruction "?><replacements/>"

end Restyle.Response
