import Mathlib.Data.List.Infix
import Restyle.Proofs.Edit.Listing
import Restyle.Proofs.Markup.Unfinished

/-! # Listings that are cut short

Output of the tool that breaks off is never taken for a shorter listing.  Where the cut falls into a
tag there is no markup any more, and where it falls elsewhere the reader still waits for an end: only
the line break behind the root may be missing.
-/
namespace Restyle.Response
open Markup

/-! ### Pieces of a listing -/

def declaration : List Char := '<' :: '?' :: ("xml version='1.0'".toList ++ ['?', '>'])

def rootTag (flag : Bool) : List Char := '<' :: ("replacements".toList ++ rootAttributes flag ++ ['>'])

def replacementTag (r : Replacement) : List Char := '<' :: ("replacement".toList ++ rangeAttributes r ++ ['>'])

def closingTag (name : String) : List Char := '<' :: '/' :: (name.toList ++ ['>'])

/-- Replacements up to the end of the root, without the line break behind it. -/
def body (rs : List Replacement) : List Char := rs.flatMap renderReplacement ++ closingTag "replacements"

theorem renderReplacement_eq (r : Replacement) : renderReplacement r =
    replacementTag r ++ (escape r.text.toList ++ (closingTag "replacement" ++ ['\n'])) := by
  have h := renderReplacement_append r []
  rw [List.append_nil] at h
  rw [h]
  simp [replacementTag, closingTag]

theorem toList_render_eq (r : Response) : r.render.toList =
    declaration ++ (['\n'] ++ (rootTag r.incompleteFormat ++ (['\n'] ++ body r.replacements))) ++ ['\n'] := by
  rw [toList_render]
  simp [declaration, rootTag, body, closingTag]

theorem head?_body (rs : List Replacement) : (body rs).head? = some '<' := by
  cases rs with
  | nil => rfl
  | cons r rs => rw [body, List.flatMap_cons, renderReplacement_eq]; rfl

/-! ### Where the cut falls -/

variable {p : Progress} {unclosed : List (List Char)} {q : List Char}

/-- Inside the listing its end is missed. -/
theorem exists_fault_of_stops (hp : p.state ≠ .afterRoot) (h : Stops unclosed q) :
    ∃ fault, ofEventsFrom p (eventsIn unclosed q) = .error fault := by
  rcases h with h | h
  · rw [h, ofEventsFrom, if_neg hp]
    exact ⟨_, rfl⟩
  · rw [h, ofEventsFrom_cons _ (by simp)]
    obtain ⟨state, flag, read⟩ := p
    cases state <;> exact ⟨_, rfl⟩

theorem stops_of_declaration (hq : q <+: declaration) (hne : q ≠ declaration) : Stops [] q := by
  have hall : ∀ t ∈ declaration.inits, t ≠ declaration → t = [] ∨ mark? (t.drop 1) = none := by decide
  rcases hall q ((List.mem_inits _ _).mpr hq) hne with rfl | hmark
  · exact stops_nil []
  · cases q with
    | nil => exact stops_nil []
    | cons c q =>
      obtain ⟨rfl, -⟩ := List.cons_prefix_cons.mp hq
      exact stops_of_mark? [] hmark

theorem stops_of_rootTag {flag : Bool} (hq : q <+: rootTag flag) (hne : q ≠ rootTag flag) : Stops unclosed q := by
  have hname : IsName "replacements".toList := by decide
  have hcut : cutTag none ("replacements".toList ++ rootAttributes flag ++ ['>']) =
      some ("replacements".toList ++ rootAttributes flag, []) := by
    rw [List.append_assoc, cutTag_name hname, cutTag_rootAttributes flag []]
    rfl
  refine stops_opening unclosed ?_ hcut hq hne
  intro c hc
  cases hc
  decide

theorem stops_of_replacementTag {r : Replacement} (hq : q <+: replacementTag r) (hne : q ≠ replacementTag r) :
    Stops unclosed q := by
  have hname : IsName "replacement".toList := by decide
  have hcut : cutTag none ("replacement".toList ++ rangeAttributes r ++ ['>']) =
      some ("replacement".toList ++ rangeAttributes r, []) := by
    rw [List.append_assoc, cutTag_name hname, cutTag_rangeAttributes r []]
    rfl
  refine stops_opening unclosed ?_ hcut hq hne
  intro c hc
  cases hc
  decide

theorem stops_of_line (hq : q <+: ['\n']) (hne : q ≠ ['\n']) : Stops unclosed q := by
  have hnil : q = [] := by
    rcases List.prefix_concat_iff.mp (show q <+: [] ++ ['\n'] from hq) with h | h
    · exact absurd h hne
    · exact List.prefix_nil.mp h
  rw [hnil]
  exact stops_nil unclosed

/-! ### Cuts in a replacement -/

theorem events_replacementTag (r : Replacement) (rest : List Char) :
    eventsIn unclosed (replacementTag r ++ rest) =
      .start "replacement".toList (rangeAttributes r) :: eventsIn ("replacement".toList :: unclosed) rest := by
  have hlast : ("replacement".toList ++ rangeAttributes r).getLast? ≠ some '/' := by
    rw [rangeAttributes, ← List.append_assoc, getLast?_written]
    decide
  have htag : replacementTag r ++ rest = '<' :: ("replacement".toList ++ (rangeAttributes r ++ '>' :: rest)) := by
    simp [replacementTag]
  rw [htag]
  exact eventsIn_opening (by decide) (by decide) (fun c hc => by cases hc; decide) (fun x hx => by cases hx; rfl)
    hlast (cutTag_rangeAttributes r rest)

theorem events_closingTag {name : String} (h : IsName name.toList) (rest : List Char) :
    eventsIn (name.toList :: unclosed) (closingTag name ++ rest) = .stop name.toList :: eventsIn unclosed rest := by
  have htag : closingTag name ++ rest = '<' :: '/' :: (name.toList ++ '>' :: rest) := by
    simp [closingTag]
  rw [htag]
  exact eventsIn_closing h rest

/-- In the text of a replacement its closing tag is missed, also where a reference is cut. -/
theorem exists_fault_of_text {offset length : Nat} {text : List Char} {flag : Bool} {read : List Replacement}
    (hq : '<' ∉ q) :
    ∃ fault, ofEventsFrom ⟨.inReplacement offset length text, flag, read⟩ (eventsIn unclosed q) = .error fault := by
  by_cases hnil : q = []
  · rw [hnil]
    exact exists_fault_of_stops (by simp) (stops_nil unclosed)
  · have hevents : eventsIn unclosed q = [.text q, .eof] := by
      have htext : eventsIn unclosed (q ++ []) = .text q :: eventsIn unclosed [] := eventsIn_text hnil hq (by simp)
      rwa [List.append_nil, eventsIn_nil] at htext
    rw [hevents, ofEventsFrom_cons _ (by simp)]
    cases hu : unescape q with
    | none => exact ⟨.inl .malformedText, by simp only [step, hu]; rfl⟩
    | some value => exact ⟨.inl .unexpectedEnd, by simp only [step, hu]; rfl⟩

theorem exists_fault_of_content {r : Replacement} {offset length : Nat} {flag : Bool} {read : List Replacement}
    (hq : q <+: escape r.text.toList ++ (closingTag "replacement" ++ ['\n']))
    (hne : q ≠ escape r.text.toList ++ (closingTag "replacement" ++ ['\n'])) :
    ∃ fault, ofEventsFrom ⟨.inReplacement offset length [], flag, read⟩
      (eventsIn ("replacement".toList :: unclosed) q) = .error fault := by
  rcases prefix_append_cases hq with ⟨htext, -⟩ | ⟨more, rfl, hmore⟩
  · apply exists_fault_of_text
    intro hlt
    exact lt_not_mem_escape _ (htext.subset hlt)
  have hhead : ∀ c ∈ more.head?, c = '<' := head?_of_isPrefix hmore rfl
  rw [eventsIn_text_escape _ _ hhead, ofEventsFrom_textEvents]
  rcases prefix_append_cases hmore with ⟨hclosing, hshort⟩ | ⟨line, rfl, hline⟩
  · exact exists_fault_of_stops (by simp) (stops_closing _ (by decide) hclosing hshort)
  have hline : Stops unclosed line := by
    apply stops_of_line hline
    intro he
    rw [he] at hne
    exact hne rfl
  rw [events_closingTag (by decide), ofEventsFrom_cons _ (by simp)]
  simp only [step, String.ofList_toList]
  cases hpush : push read ⟨offset, length, r.text⟩ with
  | error fault => exact ⟨.inl fault, rfl⟩
  | ok after => exact exists_fault_of_stops (by simp) hline

/-- A replacement that is cut short is refused, and with it the listing. -/
theorem exists_fault_of_replacement {r : Replacement} {flag : Bool} {read : List Replacement}
    (hq : q <+: renderReplacement r) (hne : q ≠ renderReplacement r) :
    ∃ fault, ofEventsFrom ⟨.inRoot, flag, read⟩ (eventsIn unclosed q) = .error fault := by
  rw [renderReplacement_eq] at hq hne
  rcases prefix_append_cases hq with ⟨htag, hshort⟩ | ⟨content, rfl, hcontent⟩
  · exact exists_fault_of_stops (by simp) (stops_of_replacementTag htag hshort)
  have hne : content ≠ escape r.text.toList ++ (closingTag "replacement" ++ ['\n']) := by
    intro he
    rw [he] at hne
    exact hne rfl
  rw [events_replacementTag, ofEventsFrom_cons _ (by simp)]
  simp only [step, if_true]
  cases readRange (rangeAttributes r) with
  | error fault => exact ⟨.inl fault, rfl⟩
  | ok range => exact exists_fault_of_content hcontent hne

/-! ### Cuts in a listing -/

/-- The line break behind the root does not matter. -/
theorem ofEventsFrom_body (rs : List Replacement) (flag : Bool) (read : List Replacement) :
    ofEventsFrom ⟨.inRoot, flag, read⟩ (eventsIn ["replacements".toList] (body rs)) =
      ofEventsFrom ⟨.inRoot, flag, read⟩ (closingEvents rs) := by
  have hclosing : eventsIn ["replacements".toList] (closingTag "replacements") =
      [.stop "replacements".toList, .eof] := by
    have htag : IsName "replacements".toList := by decide
    rw [← List.append_nil (closingTag "replacements"), events_closingTag htag, eventsIn_nil]
  rw [body, eventsIn_flatMap_renderReplacement _ _ (by intro c hc; cases hc; rfl), hclosing]
  induction rs generalizing read with
  | nil => rfl
  | cons r rs ih =>
    rw [closingEvents, List.flatMap_cons, List.append_assoc, List.append_assoc, ofEventsFrom_replacementEvents,
      ofEventsFrom_replacementEvents]
    simp only [ih]
    rfl

/-- Behind the tag of the root everything is needed up to the end of the root. -/
theorem exists_fault_of_body {rs : List Replacement} {flag : Bool} {read : List Replacement} (hq : q <+: body rs)
    (hne : q ≠ body rs) :
    ∃ fault, ofEventsFrom ⟨.inRoot, flag, read⟩ (eventsIn ["replacements".toList] q) = .error fault := by
  induction rs generalizing q read with
  | nil => exact exists_fault_of_stops (by simp) (stops_closing _ (by decide) hq hne)
  | cons r rs ih =>
    have hbody : body (r :: rs) = renderReplacement r ++ body rs := by
      simp [body]
    rw [hbody] at hq hne
    rcases prefix_append_cases hq with ⟨hr, hshort⟩ | ⟨more, rfl, hmore⟩
    · exact exists_fault_of_replacement hr hshort
    have hne : more ≠ body rs := by
      intro he
      rw [he] at hne
      exact hne rfl
    rw [eventsIn_renderReplacement _ _ (head?_of_isPrefix hmore (head?_body rs)), ofEventsFrom_replacementEvents]
    cases readRange (rangeAttributes r) with
    | error fault => exact ⟨_, rfl⟩
    | ok range =>
      simp only [Except.mapError, Except.bind]
      cases push read ⟨range.1, range.2, r.text⟩ with
      | error fault => exact ⟨_, rfl⟩
      | ok after => exact ih hmore hne

theorem events_rootTag (flag : Bool) (rest : List Char) :
    eventsIn [] (rootTag flag ++ rest) =
      .start "replacements".toList (rootAttributes flag) :: eventsIn ["replacements".toList] rest := by
  have hlast : ("replacements".toList ++ rootAttributes flag).getLast? ≠ some '/' := by
    rw [rootAttributes, ← List.append_assoc, getLast?_written]
    decide
  have htag : rootTag flag ++ rest = '<' :: ("replacements".toList ++ (rootAttributes flag ++ '>' :: rest)) := by
    simp [rootTag]
  rw [htag]
  exact eventsIn_opening (by decide) (by decide) (fun c hc => by cases hc; decide) (fun x hx => by cases hx; rfl)
    hlast (cutTag_rootAttributes flag rest)

/-- The reader in front of the root, over its tag. -/
theorem ofEventsFrom_rootTag (flag : Bool) (rest : List Char) :
    ofEventsFrom {} (eventsIn [] (rootTag flag ++ rest)) =
      ofEventsFrom ⟨.inRoot, flag, []⟩ (eventsIn ["replacements".toList] rest) := by
  rw [events_rootTag, ofEventsFrom_cons _ (by simp)]
  simp only [step, if_true, readFlag_rootAttributes]
  rfl

theorem ofEventsFrom_declaration (rest : List Char) :
    ofEventsFrom {} (eventsIn [] (declaration ++ rest)) = ofEventsFrom {} (eventsIn [] rest) := by
  have hcut : declaration ++ rest = '<' :: '?' :: ("xml version='1.0'".toList ++ '?' :: '>' :: rest) := by
    simp [declaration]
  rw [hcut, eventsIn_instruction [] (by decide) (by decide), ofEventsFrom_cons _ (by simp)]
  rfl

/-- A line break between tags is passed over. -/
theorem ofEventsFrom_break (hp : p.state = .beforeRoot ∨ p.state = .inRoot) {rest : List Char}
    (hrest : ∀ c ∈ rest.head?, c = '<') :
    ofEventsFrom p (eventsIn unclosed (['\n'] ++ rest)) = ofEventsFrom p (eventsIn unclosed rest) := by
  rw [List.singleton_append, eventsIn_line _ hrest, ofEventsFrom_line]
  rcases hp with hp | hp
  · exact Or.inl hp
  · exact Or.inr (Or.inl hp)

def listing (r : Response) : List Char :=
  declaration ++ (['\n'] ++ (rootTag r.incompleteFormat ++ (['\n'] ++ body r.replacements)))

theorem ofEvents_listing (r : Response) : ofEvents (eventsIn [] (listing r)) =
    ofEventsFrom ⟨.inRoot, r.incompleteFormat, []⟩ (closingEvents r.replacements) := by
  rw [ofEvents, listing, ofEventsFrom_declaration, ofEventsFrom_break (Or.inl rfl) (by intro c hc; cases hc; rfl),
    ofEventsFrom_rootTag, ofEventsFrom_break (Or.inr rfl), ofEventsFrom_body]
  intro c hc
  rw [head?_body] at hc
  cases hc
  rfl

theorem exists_fault_of_listing {r : Response} (hq : q <+: listing r) (hne : q ≠ listing r) :
    ∃ fault, ofEvents (eventsIn [] q) = .error fault := by
  unfold ofEvents
  -- One seam after the other: the cut falls in front of it, or the reader goes on behind it.
  rcases prefix_append_cases hq with ⟨hdeclaration, hshort⟩ | ⟨more, rfl, hmore⟩
  · exact exists_fault_of_stops (by simp) (stops_of_declaration hdeclaration hshort)
  rw [listing, ne_eq, List.append_cancel_left_eq] at hne
  rw [ofEventsFrom_declaration]
  rcases prefix_append_cases hmore with ⟨hline, hshort⟩ | ⟨root, rfl, hroot⟩
  · exact exists_fault_of_stops (by simp) (stops_of_line hline hshort)
  rw [List.append_cancel_left_eq] at hne
  rw [ofEventsFrom_break (Or.inl rfl) (head?_of_isPrefix hroot rfl)]
  rcases prefix_append_cases hroot with ⟨htag, hshort⟩ | ⟨inner, rfl, hinner⟩
  · exact exists_fault_of_stops (by simp) (stops_of_rootTag htag hshort)
  rw [List.append_cancel_left_eq] at hne
  rw [ofEventsFrom_rootTag]
  rcases prefix_append_cases hinner with ⟨hline, hshort⟩ | ⟨rest, rfl, hrest⟩
  · exact exists_fault_of_stops (by simp) (stops_of_line hline hshort)
  rw [List.append_cancel_left_eq] at hne
  rw [ofEventsFrom_break (Or.inr rfl) (head?_of_isPrefix hrest (head?_body _))]
  exact exists_fault_of_body hrest hne

/-! ### Cuts in the output -/

/-- Output that starts with a tag is read as it stands. -/
theorem decode_of_head? {text : String} (h : text.toList.head? = some '<') :
    (∀ response, ofEvents (eventsIn [] text.toList) = .ok response → decode text = .ok response) ∧
      ((∃ fault, ofEvents (eventsIn [] text.toList) = .error fault) → ∃ fault, decode text = .error fault) := by
  obtain ⟨cs, hcs⟩ := List.head?_eq_some_iff.mp h
  have hblank : ¬Text.isBlankText text = true := by
    rw [Text.isBlankText, hcs]
    simp [show Text.isBlank '<' = false from rfl]
  have hevents : events text.toList = eventsIn [] text.toList := by
    rw [hcs]
    rfl
  rw [decode, if_neg hblank, hevents]
  constructor
  · intro response hread
    rw [hread]
    rfl
  · rintro ⟨fault, hread⟩
    rw [hread]
    exact ⟨_, rfl⟩

/-- A written listing that breaks off is refused, wherever the cut falls and whatever response was
written.  Only where nothing is left there is nothing to change, and where no more is missing than the
line break at the end the listing is read as a whole one is. -/
theorem decode_of_cut (r : Response) {text rest : String} (h : text ++ rest = r.render) (hrest : rest ≠ "") :
    (text = "" → decode text = .ok {}) ∧
      (rest = "\n" →
        if (∀ x ∈ r.replacements, x.offset + x.length ≤ maxWord) ∧ r.replacements.IsChain Replacement.EndsBefore
        then decode text = .ok r else ∃ fault, decode text = .error fault) ∧
      (text ≠ "" → rest ≠ "\n" → ∃ fault, decode text = .error fault) := by
  have hlist : text.toList ++ rest.toList = listing r ++ ['\n'] := by
    rw [← String.toList_append, h, toList_render_eq, listing]
  refine ⟨?_, ?_, ?_⟩
  · rintro rfl
    rfl
  · rintro rfl
    have htext : text.toList = listing r := List.append_cancel_right hlist
    have hhead : text.toList.head? = some '<' := by
      rw [htext]
      rfl
    obtain ⟨hok, herror⟩ := decode_of_head? hhead
    rw [htext, ofEvents_listing] at hok herror
    split
    · rename_i hfit
      have hread : ofEventsFrom ⟨.inRoot, r.incompleteFormat, []⟩ (closingEvents r.replacements) =
          .ok ⟨[].reverse ++ r.replacements, r.incompleteFormat⟩ :=
        ofEventsFrom_closingEvents (by simp) hfit.1 hfit.2
      exact hok r hread
    · rename_i hfit
      cases hread : ofEventsFrom ⟨.inRoot, r.incompleteFormat, []⟩ (closingEvents r.replacements) with
      | error fault => exact herror ⟨fault, hread⟩
      | ok response => exact absurd (fit_of_ofEventsFrom (by simp) hread) hfit
  · intro htext hline
    have hprefix : text.toList <+: listing r := by
      rcases List.prefix_concat_iff.mp ⟨rest.toList, hlist⟩ with he | hprefix
      · rw [he, List.append_right_eq_self] at hlist
        exact absurd (String.toList_eq_nil_iff.mp hlist) hrest
      · exact hprefix
    have hshort : text.toList ≠ listing r := by
      intro he
      rw [he, List.append_cancel_left_eq] at hlist
      exact hline (String.toList_injective hlist)
    have hhead : text.toList.head? = some '<' := by
      obtain ⟨c, cs, hcs⟩ := List.exists_cons_of_ne_nil (mt String.toList_eq_nil_iff.mp htext)
      have hc : c = '<' := head?_of_isPrefix hprefix rfl c (by rw [hcs]; rfl)
      rw [hcs, hc]
      rfl
    exact (decode_of_head? hhead).2 (exists_fault_of_listing hprefix hshort)

/-- A cut within a reference of the second text, and one in front of the last line break. -/
theorem decode_of_cut_reference :
    (∃ fault, decode ("<?xml version='1.0'?>\n<replacements xml:space='preserve' incomplete_format='true'>\n" ++
      "<replacement offset='3' length='2'>&#10;  </replacement>\n<replacement offset='9' length='1'>&l") =
        .error fault) ∧
    decode (("<?xml version='1.0'?>\n<replacements xml:space='preserve' incomplete_format='true'>\n" ++
      "<replacement offset='3' length='2'>&#10;  </replacement>\n<replacement offset='9' length='1'>&l") ++
      "t;b</replacement>\n</replacements>") = .ok ⟨[⟨3, 2, "\n  "⟩, ⟨9, 1, "<b"⟩], true⟩ := by
  have hreference : ("<?xml version='1.0'?>\n<replacements xml:space='preserve' incomplete_format='true'>\n" ++
      "<replacement offset='3' length='2'>&#10;  </replacement>\n<replacement offset='9' length='1'>&l") ++
      "t;b</replacement>\n</replacements>\n" = render ⟨[⟨3, 2, "\n  "⟩, ⟨9, 1, "<b"⟩], true⟩ := by decide +kernel
  have hline : "t;b</replacement>\n</replacements>" ++ "\n" = "t;b</replacement>\n</replacements>\n" := by decide
  constructor
  · exact (decode_of_cut _ hreference (by decide)).2.2 (by decide) (by decide)
  · rw [← hline, ← String.append_assoc] at hreference
    have hcut := (decode_of_cut _ hreference (by decide)).2.1 rfl
    rwa [if_pos (by decide)] at hcut

end Restyle.Response
