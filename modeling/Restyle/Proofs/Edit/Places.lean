import Restyle.Proofs.Edit.Splice

/-! # Places of a scan

Whatever a cursor was asked before, it stands where a scan from the front of its bytes stands in turn, also
where the bytes are no text and where the last character is cut short.  So a request that is granted has the
answer that a fresh cursor gives, and one that fails leaves no trace.
-/
namespace Restyle

theorem codePointSize_pos (lead : UInt8) : 0 < (codePointSize lead).1 := by
  unfold codePointSize
  repeat' split
  all_goals decide

namespace Cursor

/-- Where a scan from the front of the bytes stands in turn, in bytes and in units. -/
inductive Place (bytes : List UInt8) : Nat → Nat → Prop
  | start : Place bytes 0 0
  | next {byte wide : Nat} {lead : UInt8} (h : Place bytes byte wide) (hlead : bytes[byte]? = some lead) :
      Place bytes (byte + (codePointSize lead).1) (wide + (codePointSize lead).2)

/-- The scan as a loop that looks each lead byte up in the whole sequence.  It has no answer if it would have to
look outside of it. -/
def walk? (bytes : List UInt8) (target byte wide : Nat) : Option (Nat × Nat) :=
  if byte < target then
    match bytes[byte]? with
    | none => none
    | some lead => walk? bytes target (byte + (codePointSize lead).1) (wide + (codePointSize lead).2)
  else some (byte, wide)
termination_by target - byte
decreasing_by
  have := codePointSize_pos lead
  omega

section
variable {bytes : List UInt8} {target byte wide stop units : Nat} {lead : UInt8}

theorem walk?_of_le (h : target ≤ byte) : walk? bytes target byte wide = some (byte, wide) := by
  rw [walk?, if_neg (Nat.not_lt.mpr h)]

theorem walk?_of_lead (h : byte < target) (hlead : bytes[byte]? = some lead) : walk? bytes target byte wide =
    walk? bytes target (byte + (codePointSize lead).1) (wide + (codePointSize lead).2) := by
  rw [walk?, if_pos h, hlead]

theorem le_of_walk? (h : walk? bytes target byte wide = some (stop, units)) : byte ≤ stop ∧ target ≤ stop := by
  fun_induction walk? bytes target byte wide with
  | case1 => cases h
  | case2 byte wide hlt lead hlead ih =>
    have := ih h
    omega
  | case3 byte wide hle =>
    cases h
    omega

/-- From every place on the way a walk leads where it leads from the front. -/
theorem Place.walk?_eq (h : Place bytes byte wide) (hle : byte ≤ target) :
    walk? bytes target byte wide = walk? bytes target 0 0 := by
  induction h with
  | start => rfl
  | @next byte wide lead _ hlead ih =>
    have hpos := codePointSize_pos lead
    rw [← walk?_of_lead (by omega) hlead]
    exact ih (by omega)

/-- Between a place and the next one there is no other place. -/
theorem Place.next_le {place other : Nat} (h : Place bytes byte wide) (hlead : bytes[byte]? = some lead)
    (h' : Place bytes place other) (hlt : byte < place) : byte + (codePointSize lead).1 ≤ place := by
  have hwalk : walk? bytes place (byte + (codePointSize lead).1) (wide + (codePointSize lead).2) =
      some (place, other) := by
    rw [← walk?_of_lead hlt hlead, h.walk?_eq (Nat.le_of_lt hlt), ← h'.walk?_eq (Nat.le_refl _)]
    exact walk?_of_le (Nat.le_refl _)
  exact (le_of_walk? hwalk).1

/-- A scan within the bytes looks up lead bytes only, and it ends at a place. -/
theorem Place.scan (h : Place bytes byte wide) (hin : target ≤ bytes.length) :
    ∃ stop units, walk? bytes target byte wide = some (stop, units) ∧ Place bytes stop units ∧
      Cursor.scan target byte wide (bytes.drop byte) = (stop, units, bytes.drop stop) := by
  fun_induction walk? bytes target byte wide with
  | case1 byte wide hlt hnone =>
    have hout := List.getElem?_eq_none_iff.mp hnone
    omega
  | case2 byte wide hlt lead hlead ih =>
    obtain ⟨hbyte, hget⟩ := List.getElem?_eq_some_iff.mp hlead
    have hpos := codePointSize_pos lead
    have hskip : byte + 1 + ((codePointSize lead).1 - 1) = byte + (codePointSize lead).1 := by omega
    obtain ⟨stop, units, hwalk, hplace, hscan⟩ := ih (h.next hlead)
    refine ⟨stop, units, hwalk, hplace, ?_⟩
    rw [List.drop_eq_getElem_cons hbyte, hget, Cursor.scan, if_pos hlt]
    simpa only [List.drop_drop, hskip] using hscan
  | case3 byte wide hle => exact ⟨byte, wide, rfl, h, scan_of_le (Nat.not_lt.mp hle) wide _⟩

structure Over (bytes : List UInt8) (c : Cursor) : Prop where
  len : c.len = bytes.length
  ahead : c.ahead = bytes.drop c.byte
  place : Place bytes c.byte c.wide

theorem over_start (bytes : List UInt8) : Over bytes (start bytes) := ⟨rfl, rfl, .start⟩

variable {c : Cursor}

theorem seek_of_lt (h : target < c.byte) : c.seek target = .error (.rewind target c.byte) := by
  rw [seek, if_pos h]

theorem Over.seek_of_length_lt (hc : Over bytes c) (h : c.byte ≤ target) (hout : bytes.length < target) :
    c.seek target = .error (.outOfRange target bytes.length) := by
  rw [seek, if_neg (Nat.not_lt.mpr h), hc.len, if_pos hout]

theorem Over.seek_of_le (hc : Over bytes c) (h : c.byte ≤ target) (hin : target ≤ bytes.length) :
    ∃ last, c.seek target = .ok (last.wide, last) ∧ Over bytes last ∧
      walk? bytes target c.byte c.wide = some (last.byte, last.wide) := by
  obtain ⟨stop, units, hwalk, hplace, hscan⟩ := hc.place.scan hin
  refine ⟨⟨stop, units, bytes.drop stop, c.len⟩, ?_, ⟨hc.len, rfl, hplace⟩, hwalk⟩
  rw [seek, if_neg (Nat.not_lt.mpr h), hc.len, if_neg (Nat.not_lt.mpr hin), hc.ahead, hscan]

end

/-! ### Requests one after the other -/

/-- The answer to a request, and the cursor then, which a request that fails leaves alone. -/
def ask (c : Cursor) (target : Nat) : Except OffsetError Nat × Cursor :=
  match c.seek target with
  | .ok (wide, last) => (.ok wide, last)
  | .error e => (.error e, c)

def after (c : Cursor) (requests : List Nat) : Cursor := requests.foldl (fun c target => (c.ask target).2) c

def asked (bytes : List UInt8) (requests : List Nat) : Cursor := (start bytes).after requests

def answers (c : Cursor) : List Nat → List (Except OffsetError Nat)
  | [] => []
  | target :: later => (c.ask target).1 :: (c.ask target).2.answers later

theorem answers_append (c : Cursor) (earlier later : List Nat) :
    c.answers (earlier ++ later) = c.answers earlier ++ (c.after earlier).answers later := by
  induction earlier generalizing c with
  | nil => rfl
  | cons target earlier ih => simp [answers, after, ih]

theorem ask_of_error {c : Cursor} {target : Nat} {e : OffsetError} (h : (c.ask target).1 = .error e) :
    (c.ask target).2 = c := by
  unfold ask at h ⊢
  split at h
  · cases h
  · rfl

section
variable {bytes : List UInt8} {target : Nat} {c : Cursor}

/-- A request within the bytes that does not lead back is granted, and nothing else is. -/
theorem Over.ask_cases (hc : Over bytes c) (target : Nat) :
    (target < c.byte ∧ c.ask target = (.error (.rewind target c.byte), c)) ∨
    (c.byte ≤ target ∧ bytes.length < target ∧ c.ask target = (.error (.outOfRange target bytes.length), c)) ∨
    (c.byte ≤ target ∧ target ≤ bytes.length ∧ ∃ last, c.ask target = (.ok last.wide, last) ∧ Over bytes last ∧
      walk? bytes target c.byte c.wide = some (last.byte, last.wide)) := by
  by_cases hback : target < c.byte
  · exact .inl ⟨hback, by rw [ask, seek_of_lt hback]⟩
  have hle := Nat.not_lt.mp hback
  by_cases hout : bytes.length < target
  · exact .inr (.inl ⟨hle, hout, by rw [ask, hc.seek_of_length_lt hle hout]⟩)
  have hin := Nat.not_lt.mp hout
  obtain ⟨last, hseek, hlast, hwalk⟩ := hc.seek_of_le hle hin
  exact .inr (.inr ⟨hle, hin, last, by rw [ask, hseek], hlast, hwalk⟩)

theorem Over.ask (hc : Over bytes c) (target : Nat) : Over bytes (c.ask target).2 := by
  obtain ⟨-, h⟩ | ⟨-, -, h⟩ | ⟨-, -, last, h, hlast, -⟩ := hc.ask_cases target
  · rwa [h]
  · rwa [h]
  · rwa [h]

theorem Over.after (hc : Over bytes c) (requests : List Nat) : Over bytes (c.after requests) := by
  induction requests generalizing c with
  | nil => exact hc
  | cons target requests ih => exact ih (hc.ask target)

theorem Over.error_iff (hc : Over bytes c) (e : OffsetError) : (c.ask target).1 = .error e ↔
    target < c.byte ∧ e = .rewind target c.byte ∨
      c.byte ≤ target ∧ bytes.length < target ∧ e = .outOfRange target bytes.length := by
  obtain ⟨hback, h⟩ | ⟨hle, hout, h⟩ | ⟨hle, hin, last, h, -⟩ := hc.ask_cases target
  · simp [h, hback, Nat.not_le.mpr hback, eq_comm]
  · simp [h, hle, hout, Nat.not_lt.mpr hle, eq_comm]
  · simp [h, Nat.not_lt.mpr hle, Nat.not_lt.mpr hin]

theorem Over.granted (hc : Over bytes c) {wide : Nat} (h : (c.ask target).1 = .ok wide) :
    c.byte ≤ target ∧ target ≤ bytes.length ∧
      walk? bytes target c.byte c.wide = some ((c.ask target).2.byte, wide) := by
  obtain ⟨-, he⟩ | ⟨-, -, he⟩ | ⟨hle, hin, last, hgranted, -, hwalk⟩ := hc.ask_cases target
  · simp [he] at h
  · simp [he] at h
  · rw [hgranted] at h ⊢
    cases h
    exact ⟨hle, hin, hwalk⟩

/-- A fresh cursor gives the same answer. -/
theorem Over.ask_start (hc : Over bytes c) {wide : Nat} (h : (c.ask target).1 = .ok wide) :
    ((start bytes).ask target).1 = .ok wide := by
  obtain ⟨hle, hin, hwalk⟩ := hc.granted h
  obtain ⟨last, hseek, -, hfresh⟩ := (over_start bytes).seek_of_le (Nat.zero_le target) hin
  have hsame := (hc.place.walk?_eq hle).symm.trans hwalk
  rw [show walk? bytes target 0 0 = some (last.byte, last.wide) from hfresh, Option.some_inj, Prod.mk.injEq] at hsame
  rw [Cursor.ask, hseek, hsame.2]

end

/-- At a boundary of a text a fresh cursor answers with the units of the text in front of it. -/
theorem ask_start_of_isBoundary {text : String} {target : Nat} (h : Utf8.IsBoundary (Utf8.encode text) target) :
    ((start (Utf8.encode text)).ask target).1 = .ok (unitPlace (Utf8.encode text) target) := by
  obtain ⟨front, back, hcut, rfl⟩ := h.exists_cut
  have hseek := seek_between [] front back
  rw [List.nil_append, ← hcut, ← start_flatMap] at hseek
  rw [ask, Utf8.encode, hseek, unitPlace_size hcut]

/-- Whatever a cursor was asked before, a request that it grants has the answer of a fresh cursor, found by
looking up lead bytes inside of the bytes only, and at a boundary of a text this is the number of units in
front of it.  A request fails exactly if it leads back behind the cursor or out of the bytes, and then all
later answers are as if it had not been made. -/
theorem answers_after (bytes : List UInt8) (earlier : List Nat) (target : Nat) :
    (∀ wide, ((asked bytes earlier).ask target).1 = .ok wide →
      ((start bytes).ask target).1 = .ok wide ∧
      walk? bytes target (asked bytes earlier).byte (asked bytes earlier).wide =
        some (((asked bytes earlier).ask target).2.byte, wide) ∧
      ∀ text, bytes = Utf8.encode text → Utf8.IsBoundary bytes target → wide = unitPlace bytes target) ∧
    (∀ e, ((asked bytes earlier).ask target).1 = .error e ↔
      target < (asked bytes earlier).byte ∧ e = .rewind target (asked bytes earlier).byte ∨
        (asked bytes earlier).byte ≤ target ∧ bytes.length < target ∧ e = .outOfRange target bytes.length) ∧
    ∀ e, ((asked bytes earlier).ask target).1 = .error e → ∀ later,
      (start bytes).answers (earlier ++ target :: later) =
        (start bytes).answers earlier ++ .error e :: (asked bytes earlier).answers later ∧
      (start bytes).answers (earlier ++ later) =
        (start bytes).answers earlier ++ (asked bytes earlier).answers later := by
  have hc : Over bytes (asked bytes earlier) := (over_start bytes).after earlier
  refine ⟨fun wide h => ⟨hc.ask_start h, (hc.granted h).2.2, ?_⟩, hc.error_iff, ?_⟩
  · rintro text rfl hboundary
    have hfresh := (hc.ask_start h).symm.trans (ask_start_of_isBoundary hboundary)
    cases hfresh
    rfl
  · intro e h later
    have happend (requests : List Nat) : (start bytes).answers (earlier ++ requests) =
        (start bytes).answers earlier ++ (asked bytes earlier).answers requests :=
      answers_append (start bytes) earlier requests
    rw [happend, happend, answers, h, ask_of_error h]
    exact ⟨rfl, rfl⟩

/-- The second byte of the last but one character leads behind it, so its third byte is refused and its end is not. -/
theorem answers_after_inside :
    ((asked (Utf8.encode "aé€😀b") [1, 7, 99]).ask 10).1 = .ok 5 ∧
    ((start (Utf8.encode "aé€😀b")).ask 10).1 = .ok 5 ∧ 5 = unitPlace (Utf8.encode "aé€😀b") 10 ∧
    ((asked (Utf8.encode "aé€😀b") [1, 7, 99]).ask 8).1 = .error (.rewind 8 10) ∧
    (start (Utf8.encode "aé€😀b")).answers ([1, 7, 99] ++ 8 :: [11]) =
      (start (Utf8.encode "aé€😀b")).answers [1, 7, 99] ++
        .error (.rewind 8 10) :: (asked (Utf8.encode "aé€😀b") [1, 7, 99]).answers [11] := by
  have hgranted : ((asked (Utf8.encode "aé€😀b") [1, 7, 99]).ask 10).1 = .ok 5 := by decide +kernel
  have hrefused : ((asked (Utf8.encode "aé€😀b") [1, 7, 99]).ask 8).1 = .error (.rewind 8 10) := by
    decide +kernel
  obtain ⟨hfresh, -, hunits⟩ := (answers_after (Utf8.encode "aé€😀b") [1, 7, 99] 10).1 5 hgranted
  obtain ⟨-, -, hfails⟩ := answers_after (Utf8.encode "aé€😀b") [1, 7, 99] 8
  exact ⟨hgranted, hfresh, hunits _ rfl (by decide +kernel), hrefused, (hfails _ hrefused [11]).1⟩

end Cursor
end Restyle
