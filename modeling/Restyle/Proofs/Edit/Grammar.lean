import Restyle.Proofs.Edit.Listing
import Restyle.Proofs.Markup.Nesting

/-! # The grammar of listings

A listing is stated here without its reader: which events may follow each other, what the attributes
must hold, and which replacements this stands for.  One event moves the reader exactly as this allows.
-/
namespace Restyle

def ListingState.unclosed : ListingState → List (List Char)
  | .beforeRoot | .afterRoot => []
  | .inRoot => ["replacements".toList]
  | .inReplacement _ _ _ => ["replacement".toList, "replacements".toList]

namespace Response
open Markup

/-! ### The grammar -/

inductive HasFlag (attributes : List Char) : Bool → Prop
  | absent (h : Holds "incomplete_format".toList [] attributes none) : HasFlag attributes false
  | written {value : List Char} {flag : Bool} (h : Holds "incomplete_format".toList [] attributes (some value))
      (hvalue : Text.trimChars value = (toString flag).toList) : HasFlag attributes flag

def HasNumber (name : String) (attributes : List Char) (n : Nat) : Prop :=
  ∃ value, Holds name.toList [] attributes (some value) ∧ Text.IsWord (Text.trimChars value) n

def HasRange (attributes : List Char) (offset length : Nat) : Prop :=
  HasNumber "offset" attributes offset ∧ HasNumber "length" attributes length ∧ offset + length ≤ maxWord

/-- The events in a replacement, and the text that they stand for. -/
inductive IsBody : List Event → List Char → Prop
  | nil : IsBody [] []
  | text {raw value text : List Char} {es : List Event} (h : unescape raw = some value) (rest : IsBody es text) :
      IsBody (.text raw :: es) (value ++ text)
  | cdata {raw text : List Char} {es : List Event} (rest : IsBody es text) : IsBody (.cdata raw :: es) (raw ++ text)

inductive IsElement : List Event → Replacement → Prop
  | empty {attributes : List Char} {offset length : Nat} (h : HasRange attributes offset length) :
      IsElement [.empty "replacement".toList attributes] ⟨offset, length, ""⟩
  | full {attributes text : List Char} {offset length : Nat} {body : List Event}
      (h : HasRange attributes offset length) (hbody : IsBody body text) :
      IsElement (.start "replacement".toList attributes :: (body ++ [.stop "replacement".toList]))
        ⟨offset, length, String.ofList text⟩

inductive IsListing : List Event → Response → Prop
  | empty {attributes : List Char} {flag : Bool} (h : HasFlag attributes flag) :
      IsListing [.empty "replacements".toList attributes, .eof] ⟨[], flag⟩
  | full {attributes : List Char} {flag : Bool} {elements : List (List Event)} {rs : List Replacement}
      (h : HasFlag attributes flag) (helements : List.Forall₂ IsElement elements rs)
      (hordered : rs.IsChain Replacement.EndsBefore) :
      IsListing (.start "replacements".toList attributes ::
        (elements.flatten ++ [.stop "replacements".toList, .eof])) ⟨rs, flag⟩

/-- Whether an event inside the elements `unclosed` carries nothing.  Blank text does in a replacement. -/
def isIgnored (unclosed : List (List Char)) : Event → Bool
  | .aside => true
  | .text raw => raw.all Text.isAsciiBlank && !unclosed.contains "replacement".toList
  | _ => false

def significant (unclosed : List (List Char)) : List Event → List Event
  | [] => []
  | e :: es =>
    if isIgnored unclosed e then significant (e.openAfter unclosed) es
    else e :: significant (e.openAfter unclosed) es

/-! ### Attributes -/

theorem readAttribute_eq_ok_iff {name : String} {attributes : List Char} {value : Option (List Char)} :
    readAttribute name attributes = .ok value ↔ Holds name.toList [] attributes value := by
  rw [← findAttribute_eq_ok_iff, readAttribute, attribute?]
  cases findAttribute name.toList [] attributes with
  | error fault => simp [Except.mapError]
  | ok result => simp [Except.mapError]

theorem readFlag_eq_ok_iff {attributes : List Char} {flag : Bool} :
    readFlag attributes = .ok flag ↔ HasFlag attributes flag := by
  constructor
  · intro h
    cases hread : readAttribute "incomplete_format" attributes with
    | error fault => simp [readFlag, hread, bind, Except.bind] at h
    | ok value? =>
      have hholds := readAttribute_eq_ok_iff.mp hread
      simp only [readFlag, hread, bind, Except.bind] at h
      cases value? with
      | none =>
        cases h
        exact .absent hholds
      | some value =>
        dsimp only at h
        split at h
        · rename_i htrue
          cases h
          exact .written hholds htrue
        · split at h
          · rename_i hfalse
            cases h
            exact .written hholds hfalse
          · cases h
  · intro h
    cases h with
    | absent h =>
      simp only [readFlag, readAttribute_eq_ok_iff.mpr h, bind, Except.bind]
      rfl
    | written h hvalue =>
      simp only [readFlag, readAttribute_eq_ok_iff.mpr h, bind, Except.bind, hvalue]
      cases flag <;> rfl

theorem readNumber_eq_ok_iff {name : String} {attributes : List Char} {n : Nat} :
    readNumber name attributes = .ok n ↔ HasNumber name attributes n := by
  constructor
  · intro h
    cases hread : readAttribute name attributes with
    | error fault => simp [readNumber, hread, bind, Except.bind] at h
    | ok value? =>
      have hholds := readAttribute_eq_ok_iff.mp hread
      simp only [readNumber, hread, bind, Except.bind] at h
      cases value? with
      | none => cases h
      | some value =>
        dsimp only at h
        split at h
        · rename_i k hk
          cases h
          exact ⟨value, hholds, Text.readWord_eq_ok_iff.mp hk⟩
        · cases h
  · rintro ⟨value, hholds, hword⟩
    simp only [readNumber, readAttribute_eq_ok_iff.mpr hholds, bind, Except.bind, Text.readWord_eq_ok_iff.mpr hword]
    rfl

theorem readRange_eq_ok_iff {attributes : List Char} {offset length : Nat} :
    readRange attributes = .ok (offset, length) ↔ HasRange attributes offset length := by
  constructor
  · intro h
    cases ho : readNumber "offset" attributes with
    | error fault => simp [readRange, ho, bind, Except.bind] at h
    | ok o =>
      cases hl : readNumber "length" attributes with
      | error fault => simp [readRange, ho, hl, bind, Except.bind] at h
      | ok l =>
        simp only [readRange, ho, hl, bind, Except.bind] at h
        split at h
        · cases h
        · rename_i hfit
          cases h
          exact ⟨readNumber_eq_ok_iff.mp ho, readNumber_eq_ok_iff.mp hl, Nat.not_lt.mp hfit⟩
  · rintro ⟨ho, hl, hfit⟩
    simp only [readRange, readNumber_eq_ok_iff.mpr ho, readNumber_eq_ok_iff.mpr hl, bind, Except.bind,
      if_neg (Nat.not_lt.mpr hfit)]
    rfl

/-! ### One event -/

/-- The events that the reader takes, and where each leads. -/
inductive Takes : Progress → Event → Progress → Prop
  | ignored {p : Progress} {e : Event} (h : isIgnored p.state.unclosed e = true) : Takes p e p
  | emptyRoot {attributes : List Char} {flag new : Bool} {read : List Replacement} (h : HasFlag attributes new) :
      Takes ⟨.beforeRoot, flag, read⟩ (.empty "replacements".toList attributes) ⟨.afterRoot, new, read⟩
  | openRoot {attributes : List Char} {flag new : Bool} {read : List Replacement} (h : HasFlag attributes new) :
      Takes ⟨.beforeRoot, flag, read⟩ (.start "replacements".toList attributes) ⟨.inRoot, new, read⟩
  | closeRoot {name : List Char} {flag : Bool} {read : List Replacement} :
      Takes ⟨.inRoot, flag, read⟩ (.stop name) ⟨.afterRoot, flag, read⟩
  | emptyElement {attributes : List Char} {offset length : Nat} {flag : Bool} {read after : List Replacement}
      (h : HasRange attributes offset length) (hpush : push read ⟨offset, length, ""⟩ = .ok after) :
      Takes ⟨.inRoot, flag, read⟩ (.empty "replacement".toList attributes) ⟨.inRoot, flag, after⟩
  | openElement {attributes : List Char} {offset length : Nat} {flag : Bool} {read : List Replacement}
      (h : HasRange attributes offset length) :
      Takes ⟨.inRoot, flag, read⟩ (.start "replacement".toList attributes)
        ⟨.inReplacement offset length [], flag, read⟩
  | text {raw value text : List Char} {offset length : Nat} {flag : Bool} {read : List Replacement}
      (h : unescape raw = some value) :
      Takes ⟨.inReplacement offset length text, flag, read⟩ (.text raw)
        ⟨.inReplacement offset length (text ++ value), flag, read⟩
  | cdata {raw text : List Char} {offset length : Nat} {flag : Bool} {read : List Replacement} :
      Takes ⟨.inReplacement offset length text, flag, read⟩ (.cdata raw)
        ⟨.inReplacement offset length (text ++ raw), flag, read⟩
  | closeElement {name text : List Char} {offset length : Nat} {flag : Bool} {read after : List Replacement}
      (hpush : push read ⟨offset, length, String.ofList text⟩ = .ok after) :
      Takes ⟨.inReplacement offset length text, flag, read⟩ (.stop name) ⟨.inRoot, flag, after⟩

theorem mapError_bind_eq_ok {α β : Type} {x : Except DecodeFault α} {f : α → Except (DecodeFault ⊕ MarkupKind) β}
    {b : β} (h : (x.mapError Sum.inl).bind f = .ok b) : ∃ a, x = .ok a ∧ f a = .ok b := by
  cases x with
  | error fault => cases h
  | ok a => exact ⟨a, rfl, h⟩

theorem takes_of_step_start {p q : Progress} {name attributes : List Char}
    (h : step p (.start name attributes) = .ok q) : Takes p (.start name attributes) q := by
  obtain ⟨state, flag, read⟩ := p
  cases state with
  | beforeRoot =>
    simp only [step] at h
    split at h
    · rename_i hname
      subst hname
      obtain ⟨new, hflag, hq⟩ := mapError_bind_eq_ok h
      cases hq
      exact .openRoot (readFlag_eq_ok_iff.mp hflag)
    · cases h
  | inRoot =>
    simp only [step] at h
    split at h
    · rename_i hname
      subst hname
      obtain ⟨⟨offset, length⟩, hrange, hq⟩ := mapError_bind_eq_ok h
      cases hq
      exact .openElement (readRange_eq_ok_iff.mp hrange)
    · cases h
  | _ => cases h

theorem takes_of_step_empty {p q : Progress} {name attributes : List Char}
    (h : step p (.empty name attributes) = .ok q) : Takes p (.empty name attributes) q := by
  obtain ⟨state, flag, read⟩ := p
  cases state with
  | beforeRoot =>
    simp only [step] at h
    split at h
    · rename_i hname
      subst hname
      obtain ⟨new, hflag, hq⟩ := mapError_bind_eq_ok h
      cases hq
      exact .emptyRoot (readFlag_eq_ok_iff.mp hflag)
    · cases h
  | inRoot =>
    simp only [step] at h
    split at h
    · rename_i hname
      subst hname
      obtain ⟨⟨offset, length⟩, hrange, hrest⟩ := mapError_bind_eq_ok h
      obtain ⟨after, hpush, hq⟩ := mapError_bind_eq_ok hrest
      cases hq
      exact .emptyElement (readRange_eq_ok_iff.mp hrange) hpush
    · cases h
  | _ => cases h

theorem takes_of_step_stop {p q : Progress} {name : List Char} (h : step p (.stop name) = .ok q) :
    Takes p (.stop name) q := by
  obtain ⟨state, flag, read⟩ := p
  cases state with
  | inRoot =>
    cases h
    exact .closeRoot
  | inReplacement offset length text =>
    obtain ⟨after, hpush, hq⟩ := mapError_bind_eq_ok h
    cases hq
    exact .closeElement hpush
  | _ => cases h

/-- Text counts in a replacement, and elsewhere it is blank. -/
theorem takes_of_step_text {p q : Progress} {raw : List Char} (h : step p (.text raw) = .ok q) :
    Takes p (.text raw) q := by
  obtain ⟨state, flag, read⟩ := p
  cases state with
  | inReplacement offset length text =>
    simp only [step] at h
    split at h
    · rename_i value hvalue
      cases h
      exact .text hvalue
    · cases h
  | _ =>
    simp only [step] at h
    split at h
    · cases h
      exact .ignored (by simp_all [isIgnored, ListingState.unclosed])
    · cases h

theorem takes_of_step {p q : Progress} {e : Event} (h : step p e = .ok q) : Takes p e q := by
  cases e with
  | start name attributes => exact takes_of_step_start h
  | empty name attributes => exact takes_of_step_empty h
  | stop name => exact takes_of_step_stop h
  | text raw => exact takes_of_step_text h
  | cdata raw =>
    obtain ⟨state, flag, read⟩ := p
    cases state <;> cases h
    exact .cdata
  | aside =>
    obtain ⟨state, flag, read⟩ := p
    cases state <;> cases h <;> exact .ignored rfl
  | eof =>
    obtain ⟨state, flag, read⟩ := p
    cases state <;> cases h
  | malformed =>
    obtain ⟨state, flag, read⟩ := p
    cases state <;> cases h

theorem step_of_takes {p q : Progress} {e : Event} (h : Takes p e q) : step p e = .ok q := by
  cases h with
  | ignored h =>
    obtain ⟨state, flag, read⟩ := p
    cases e with
    | aside => cases state <;> rfl
    | text raw => cases state <;> simp_all [isIgnored, step, ListingState.unclosed]
    | _ => cases h
  | emptyRoot h => simp only [step, if_true, readFlag_eq_ok_iff.mpr h]; rfl
  | openRoot h => simp only [step, if_true, readFlag_eq_ok_iff.mpr h]; rfl
  | closeRoot => rfl
  | emptyElement h hpush =>
    simp only [step, if_true, readRange_eq_ok_iff.mpr h, Except.mapError, bind, Except.bind, hpush]
    rfl
  | openElement h => simp only [step, if_true, readRange_eq_ok_iff.mpr h]; rfl
  | text h => simp only [step, h]
  | cdata => rfl
  | closeElement hpush => simp only [step, hpush]; rfl

theorem openAfter_of_isIgnored {unclosed : List (List Char)} {e : Event} (h : isIgnored unclosed e = true) :
    e.openAfter unclosed = unclosed := by
  cases e with
  | text raw => rfl
  | aside => rfl
  | _ => cases h

theorem significant_of_isIgnored {unclosed : List (List Char)} {e : Event} (h : isIgnored unclosed e = true)
    (es : List Event) : significant unclosed (e :: es) = significant unclosed es := by
  rw [significant, if_pos h, openAfter_of_isIgnored h]

theorem significant_of_not_isIgnored {unclosed : List (List Char)} {e : Event} (h : isIgnored unclosed e = false)
    (es : List Event) : significant unclosed (e :: es) = e :: significant (e.openAfter unclosed) es := by
  rw [significant, h]
  rfl

theorem isIgnored_text_of_mem {unclosed : List (List Char)} (h : "replacement".toList ∈ unclosed) (raw : List Char) :
    isIgnored unclosed (.text raw) = false := by
  simp only [isIgnored, List.contains_iff_mem.mpr h, Bool.not_true, Bool.and_false]

theorem Takes.unclosed {p q : Progress} {e : Event} (h : Takes p e q) :
    q.state.unclosed = e.openAfter p.state.unclosed := by
  cases h with
  | ignored h => exact (openAfter_of_isIgnored h).symm
  | _ => rfl

end Response
end Restyle
