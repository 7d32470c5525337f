import Mathlib.Data.List.Basic
import Restyle.Tool.Output

/-! # The form of a diagnostic

A text has a diagnostic at its front exactly when it begins with a `Head`: a place in a file and a
severity, with blanks around the colon between them.  The reader finds this head without going back, as
no piece of it can stand for another.
-/
namespace Restyle
namespace Diagnostic

def Filled (kind : Char → Bool) (cs : List Char) : Prop := cs ≠ [] ∧ ∀ c ∈ cs, kind c = true

def Blanks (cs : List Char) : Prop := ∀ c ∈ cs, Text.isBlank c = true

/-- A slash, or a drive letter with its colon. -/
inductive IsStart : List Char → Prop
  | root : IsStart ['/']
  | drive {c : Char} : Text.isAsciiLetter c = true → IsStart [c, ':']

structure Place where
  start : List Char
  name : List Char
  line : List Char
  column : List Char
  isStart : IsStart start
  filled_name : Filled isFileChar name
  filled_line : Filled Text.isDigit line
  filled_column : Filled Text.isDigit column

def Place.text (p : Place) : List Char :=
  p.start ++ (p.name ++ ':' :: (p.line ++ ':' :: p.column))

structure Head extends Place where
  gap : List Char
  lead : List Char
  severity : List Char
  blanks_gap : Blanks gap
  blanks_lead : Blanks lead
  filled_severity : Filled Text.isWord severity

def Head.text (h : Head) : List Char :=
  h.toPlace.text ++ (h.gap ++ ':' :: (h.lead ++ (h.severity ++ [':'])))

/-! ### Kinds of characters -/

def blankCodes : List Nat :=
  [0x09, 0x0A, 0x0B, 0x0C, 0x0D, 0x20, 0x85, 0xA0, 0x1680, 0x2000, 0x2001, 0x2002, 0x2003, 0x2004, 0x2005,
    0x2006, 0x2007, 0x2008, 0x2009, 0x200A, 0x2028, 0x2029, 0x202F, 0x205F, 0x3000]

theorem toNat_mem_blankCodes {c : Char} (h : Text.isBlank c = true) : c.toNat ∈ blankCodes := by
  simp [Text.isBlank] at h
  simp [blankCodes]
  omega

theorem isWord_eq_false_of_isBlank {c : Char} (h : Text.isBlank c = true) : Text.isWord c = false := by
  have hall : ∀ n ∈ blankCodes, Text.isWord (Char.ofNat n) = false := by decide +kernel
  simpa using hall c.toNat (toNat_mem_blankCodes h)

theorem isDigit_eq_false_of_isBlank {c : Char} (h : Text.isBlank c = true) : Text.isDigit c = false := by
  have hall : ∀ n ∈ blankCodes, Text.isDigit (Char.ofNat n) = false := by decide +kernel
  simpa using hall c.toNat (toNat_mem_blankCodes h)

@[simp] theorem isFileChar_colon : isFileChar ':' = false := rfl
@[simp] theorem isDigit_colon : Text.isDigit ':' = false := by decide +kernel
@[simp] theorem isWord_colon : Text.isWord ':' = false := by decide +kernel
@[simp] theorem isBlank_colon : Text.isBlank ':' = false := by decide +kernel

/-! ### Reading one piece -/

section
variable {kind : Char → Bool} {cs found rest : List Char}

theorem takeWhile_filled {c : Char} (hf : ∀ a ∈ found, kind a = true) (hc : kind c = false) :
    (found ++ c :: rest).takeWhile kind = found := by
  simp [List.takeWhile_append_of_pos hf, hc]

theorem dropWhile_filled {c : Char} (hf : ∀ a ∈ found, kind a = true) (hc : kind c = false) :
    (found ++ c :: rest).dropWhile kind = c :: rest := by
  simp [List.dropWhile_append_of_pos hf, hc]

theorem filled_takeWhile (h : cs.takeWhile kind ≠ []) : Filled kind (cs.takeWhile kind) :=
  ⟨h, fun c hc => by simpa using List.all_eq_true.mp (List.all_takeWhile) c hc⟩

theorem fileStart?_eq_some_iff : fileStart? cs = some (found, rest) ↔ IsStart found ∧ cs = found ++ rest := by
  constructor
  · intro h
    unfold fileStart? at h
    split at h
    · cases h
      exact ⟨.root, rfl⟩
    · split at h
      · cases h
        exact ⟨.drive ‹_›, rfl⟩
      · cases h
    · cases h
  · rintro ⟨hstart, rfl⟩
    cases hstart with
    | root => rfl
    | @drive c hc =>
      have hslash : c ≠ '/' := by
        rintro rfl
        exact absurd hc (by decide)
      simp [fileStart?, hc]

theorem field?_eq_some_iff (hcolon : kind ':' = false) :
    field? kind cs = some (found, rest) ↔ Filled kind found ∧ cs = found ++ ':' :: rest := by
  constructor
  · intro h
    unfold field? at h
    split at h
    · rename_i htake hdrop
      cases h
      rw [← htake, ← hdrop, List.takeWhile_append_dropWhile]
      exact ⟨filled_takeWhile (by simp [htake]), rfl⟩
    · cases h
  · rintro ⟨hfound, rfl⟩
    obtain ⟨c, cs, rfl⟩ := List.exists_cons_of_ne_nil hfound.1
    simp only [field?, takeWhile_filled hfound.2 hcolon, dropWhile_filled hfound.2 hcolon]

theorem column?_eq_some_iff :
    column? cs = some (found, rest) ↔
      Filled Text.isDigit found ∧ ∃ gap, Blanks gap ∧ cs = found ++ (gap ++ ':' :: rest) := by
  constructor
  · intro h
    unfold column? at h
    split at h
    · rename_i htake hdrop
      cases h
      refine ⟨htake ▸ filled_takeWhile (by simp [htake]), (cs.dropWhile Text.isDigit).takeWhile Text.isBlank, ?_, ?_⟩
      · intro c hc
        simpa using List.all_eq_true.mp (List.all_takeWhile) c hc
      · rw [← htake, ← hdrop, List.takeWhile_append_dropWhile, List.takeWhile_append_dropWhile]
    · cases h
  · rintro ⟨hfound, gap, hgap, rfl⟩
    -- The digits end where the gap begins, as no blank is a digit.
    have hnext : ∃ c more, gap ++ ':' :: rest = c :: more ∧ Text.isDigit c = false := by
      cases gap with
      | nil => exact ⟨':', rest, rfl, isDigit_colon⟩
      | cons c more => exact ⟨c, _, rfl, isDigit_eq_false_of_isBlank (hgap c (by simp))⟩
    obtain ⟨c, more, hmore, hc⟩ := hnext
    have htake : (found ++ (gap ++ ':' :: rest)).takeWhile Text.isDigit = found := by
      rw [hmore, takeWhile_filled hfound.2 hc]
    have hdrop : (found ++ (gap ++ ':' :: rest)).dropWhile Text.isDigit = gap ++ ':' :: rest := by
      rw [hmore, dropWhile_filled hfound.2 hc]
    obtain ⟨d, ds, rfl⟩ := List.exists_cons_of_ne_nil hfound.1
    simp only [column?, htake, hdrop, dropWhile_filled hgap isBlank_colon]

end

/-! ### Reading a diagnostic -/

def Head.diagnostic (h : Head) (tail : List Char) : Diagnostic :=
  ⟨h.start ++ h.name, h.line, h.column, h.severity, (Text.trimStart tail).takeWhile (· ≠ '\n')⟩

theorem dropWhile_lead {lead severity rest : List Char} (hl : Blanks lead) (hs : Filled Text.isWord severity) :
    (lead ++ (severity ++ rest)).dropWhile Text.isBlank = severity ++ rest := by
  obtain ⟨c, cs, rfl⟩ := List.exists_cons_of_ne_nil hs.1
  refine dropWhile_filled hl ?_
  by_contra hblank
  have := isWord_eq_false_of_isBlank (by simpa using hblank)
  simp [hs.2 c] at this

/-- A diagnostic stands at the front of a text exactly if a head does. -/
theorem atFront?_eq_some_iff {cs rest : List Char} {d : Diagnostic} :
    atFront? cs = some (d, rest) ↔
      ∃ (h : Head) (tail : List Char), cs = h.text ++ tail ∧ d = h.diagnostic tail ∧
        rest = (Text.trimStart tail).dropWhile (· ≠ '\n') := by
  constructor
  · intro h
    simp only [atFront?, Option.bind_eq_bind, Option.bind_eq_some_iff, Prod.exists, Option.pure_def,
      Option.some.injEq, Prod.mk.injEq, fileStart?_eq_some_iff, field?_eq_some_iff isFileChar_colon,
      field?_eq_some_iff isDigit_colon, field?_eq_some_iff isWord_colon, column?_eq_some_iff] at h
    obtain ⟨start, _, ⟨hstart, rfl⟩, name, _, ⟨hname, rfl⟩, line, _, ⟨hline, rfl⟩, column, after,
      ⟨hcolumn, gap, hgap, rfl⟩, severity, tail, ⟨hseverity, hafter⟩, rfl, rfl⟩ := h
    have hlead : Blanks (after.takeWhile Text.isBlank) := fun c hc => by
      simpa using List.all_eq_true.mp (List.all_takeWhile) c hc
    refine ⟨⟨⟨start, name, line, column, hstart, hname, hline, hcolumn⟩, gap, _, severity, hgap, hlead, hseverity⟩,
      tail, ?_, rfl, rfl⟩
    have hsplit : after = after.takeWhile Text.isBlank ++ (severity ++ ':' :: tail) := by
      rw [← hafter, List.takeWhile_append_dropWhile]
    simp [Head.text, Place.text, ← hsplit]
  · rintro ⟨h, tail, rfl, rfl, rfl⟩
    have hstart : fileStart? (h.text ++ tail) = some (h.start, _) :=
      fileStart?_eq_some_iff.mpr ⟨h.isStart, by
        simp only [Head.text, Place.text, List.append_assoc, List.cons_append, List.nil_append]
        rfl⟩
    have hname := fun rest => (field?_eq_some_iff isFileChar_colon).mpr ⟨h.filled_name, Eq.refl (h.name ++ ':' :: rest)⟩
    have hline := fun rest => (field?_eq_some_iff isDigit_colon).mpr ⟨h.filled_line, Eq.refl (h.line ++ ':' :: rest)⟩
    have hcolumn := fun rest => column?_eq_some_iff.mpr
      ⟨h.filled_column, h.gap, h.blanks_gap, Eq.refl (h.column ++ (h.gap ++ ':' :: rest))⟩
    have hseverity := fun rest =>
      (field?_eq_some_iff isWord_colon).mpr ⟨h.filled_severity, Eq.refl (h.severity ++ ':' :: rest)⟩
    simp [atFront?, hstart, hname, hline, hcolumn, hseverity, dropWhile_lead h.blanks_lead h.filled_severity,
      Head.diagnostic, Text.trimStart]

/-! ### The first diagnostic -/

theorem first?_eq_some_of_atFront? {cs : List Char} {found : Diagnostic × List Char} (h : atFront? cs = some found) :
    first? cs = some found := by
  cases cs with
  | nil => cases h
  | cons c cs => simp only [first?, h]

theorem first?_cons_of_atFront? {c : Char} {cs : List Char} (h : atFront? (c :: cs) = none) :
    first? (c :: cs) = first? cs := by
  simp only [first?, h]

theorem exists_suffix_of_first? {cs : List Char} {found : Diagnostic × List Char} (h : first? cs = some found) :
    ∃ before s, cs = before ++ s ∧ atFront? s = some found := by
  induction cs with
  | nil => cases h
  | cons c cs ih =>
    cases hfront : atFront? (c :: cs) with
    | some found' =>
      rw [first?_eq_some_of_atFront? hfront] at h
      exact ⟨[], _, rfl, h ▸ hfront⟩
    | none =>
      rw [first?_cons_of_atFront? hfront] at h
      obtain ⟨before, s, rfl, hs⟩ := ih h
      exact ⟨c :: before, s, rfl, hs⟩

theorem atFront?_eq_none_of_first? {cs s : List Char} (h : first? cs = none) (hs : s <:+ cs) : atFront? s = none := by
  induction cs with
  | nil =>
    obtain rfl := List.suffix_nil.mp hs
    rfl
  | cons c cs ih =>
    cases hfront : atFront? (c :: cs) with
    | some found => simp [first?_eq_some_of_atFront? hfront] at h
    | none =>
      rw [first?_cons_of_atFront? hfront] at h
      rcases List.suffix_cons_iff.mp hs with rfl | hs
      · exact hfront
      · exact ih h hs

def position? (d : Diagnostic) : Option Position := do
  if d.severity ≠ "error".toList then none
  let line ← positive? d.line
  let column ← positive? d.column
  return ⟨String.ofList (d.file.map fun c => if c = '\\' then '/' else c), line - 1, column - 1⟩

theorem file_of_position? {d : Diagnostic} {p : Position} (h : d.position? = some p) :
    p.file = String.ofList (d.file.map fun c => if c = '\\' then '/' else c) := by
  simp only [position?, Option.bind_eq_bind, Option.pure_def] at h
  split at h
  · cases h
  · simp only [Option.bind_eq_some_iff, Option.some.injEq] at h
    obtain ⟨line, -, column, -, rfl⟩ := h
    rfl

end Diagnostic

theorem validation?_position? (cs : List Char) :
    ((validation? cs).bind Failure.position?) = (Diagnostic.first? cs).bind fun found => found.1.position? := by
  unfold validation? Diagnostic.position?
  cases Diagnostic.first? cs with
  | none => rfl
  | some found =>
    by_cases hs : found.1.severity = "error".toList
    · cases hl : Diagnostic.positive? found.1.line <;> cases hc : Diagnostic.positive? found.1.column <;>
        simp [hs, hl, hc, Failure.position?]
    · simp only [Option.bind_eq_bind, Option.bind_some, ne_eq, hs, not_false_eq_true, if_true]
      rfl

/-- Past the marker, the first diagnostic alone decides what place a failure names. -/
theorem classify_position? {exitCode : Int} {stdout stderr invocation : String}
    (hmarker : missingLanguageMarker.isPrefixOf stderr.toList = false) :
    (classify exitCode stdout stderr invocation).position? =
      (Diagnostic.first? stderr.toList).bind fun found => found.1.position? := by
  rw [← validation?_position?]
  simp only [classify, hmarker, Bool.false_eq_true, if_false]
  cases validation? stderr.toList with
  | none => rfl
  | some failure => rfl

theorem classify_position?_marker {exitCode : Int} {stdout stderr invocation : String}
    (hmarker : missingLanguageMarker.isPrefixOf stderr.toList = true) :
    (classify exitCode stdout stderr invocation).position? = none := by
  simp [classify, hmarker, Failure.position?]

end Restyle
