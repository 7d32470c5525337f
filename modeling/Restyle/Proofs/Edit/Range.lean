import Restyle.Proofs.Edit.Failure
import Restyle.Proofs.Edit.Offset
import Restyle.Proofs.Edit.Splice

/-! # Ranges in a growing document

A replacement is looked up in the source and shifted by the growth of the document.  However replacements
overlap, the shift never leads in front of the document: what was deleted lies behind the cursor, and the
cursor only goes forward.  Over the bytes of the document the cursor never counts more units than the
document had, so no range ends behind it, either, and only the lookup can fail.
-/
namespace Restyle

/-- Where a replacement lies in a document that has grown, and the cursor behind it. -/
def locate (index : Nat) (cursor : Cursor) (growth : Int) (r : Replacement) :
    Except ApplyError (Nat × Nat × Cursor) := do
  let (startWide, mid) ← (cursor.seek r.offset).mapError (ApplyError.offset index r)
  let (stopWide, last) ← (mid.seek r.stop).mapError (ApplyError.offset index r)
  if growth + startWide < 0 || growth + stopWide < 0 then throw (.negativeOffset index r)
  return ((growth + startWide).toNat, (growth + stopWide).toNat, last)

/-- Applying a replacement hands the range where it lies to the document. -/
theorem applyOne_eq_locate (index : Nat) (cursor : Cursor) (growth : Int) (b : Buffer) (r : Replacement) :
    applyOne index cursor growth b r = do
      let (start, stop, last) ← locate index cursor growth r
      let after ← (b.replaceRange start stop r.text).mapError (ApplyError.buffer index r)
      return (last, growth + ((Utf16.encode r.text).length - (stop - start : Int)), after) := by
  simp only [applyOne, locate, bind, Except.bind]
  split
  · rfl
  split
  · rfl
  split
  · rfl
  · rename_i hneg
    simp only [Bool.or_eq_true, decide_eq_true_eq, not_or, Int.not_lt] at hneg
    simp only [pure, Except.pure, Int.toNat_of_nonneg hneg.1, Int.toNat_of_nonneg hneg.2]

section
variable {index start stop : Nat} {cursor last : Cursor} {growth : Int} {b : Buffer} {r : Replacement}

theorem applyOne_of_locate_error {cause : ApplyError} (h : locate index cursor growth r = .error cause) :
    applyOne index cursor growth b r = .error cause := by
  rw [applyOne_eq_locate, h]
  rfl

theorem applyOne_of_replaceRange {after : Buffer} (h : locate index cursor growth r = .ok (start, stop, last))
    (hr : b.replaceRange start stop r.text = .ok after) : applyOne index cursor growth b r =
      .ok (last, growth + ((Utf16.encode r.text).length - (stop - start : Int)), after) := by
  rw [applyOne_eq_locate, h]
  simp [Except.mapError, bind, Except.bind, hr, pure, Except.pure]

theorem applyOne_of_replaceRange_error {source : RangeError}
    (h : locate index cursor growth r = .ok (start, stop, last)) (hr : b.replaceRange start stop r.text = .error source) :
    applyOne index cursor growth b r = .error (.buffer index r source) := by
  rw [applyOne_eq_locate, h]
  simp [Except.mapError, bind, Except.bind, hr]

/-- What was deleted lies behind the cursor. -/
theorem locate_cases (index : Nat) (r : Replacement) (h : 0 ≤ growth + cursor.wide) :
    (∃ source, locate index cursor growth r = .error (.offset index r source)) ∨
    ∃ start stop last, locate index cursor growth r = .ok (start, stop, last) ∧ start ≤ stop ∧
      (stop : Int) = growth + last.wide ∧ ∀ cs, cursor.StandsIn cs → last.StandsIn cs := by
  unfold locate
  cases hstart : cursor.seek r.offset with
  | error source => exact .inl ⟨source, rfl⟩
  | ok found =>
    obtain ⟨startWide, mid⟩ := found
    cases hstop : mid.seek r.stop with
    | error source => exact .inl ⟨source, by simp [Except.mapError, bind, Except.bind, hstop]⟩
    | ok found =>
      obtain ⟨stopWide, last⟩ := found
      obtain ⟨rfl, hle⟩ := Cursor.wide_of_seek hstart
      obtain ⟨rfl, hle'⟩ := Cursor.wide_of_seek hstop
      have hneg : (decide (growth + (mid.wide : Int) < 0) || decide (growth + (last.wide : Int) < 0)) = false := by
        simp only [Bool.or_eq_false_iff, decide_eq_false_iff_not]
        omega
      refine .inr ⟨(growth + mid.wide).toNat, (growth + last.wide).toNat, last, ?_, ?_, ?_, ?_⟩
      · simp [Except.mapError, bind, Except.bind, hstop, hneg, pure, Except.pure]
      · omega
      · omega
      · exact fun cs hc => (hc.seek hstart).seek hstop

theorem applyOne_cases (index : Nat) (b : Buffer) (r : Replacement) (h : 0 ≤ growth + cursor.wide) :
    (∃ source, applyOne index cursor growth b r = .error (.offset index r source)) ∨
    (∃ source, applyOne index cursor growth b r = .error (.buffer index r source)) ∨
    ∃ last grown after, applyOne index cursor growth b r = .ok (last, grown, after) ∧ 0 ≤ grown + last.wide := by
  rcases locate_cases index r h with ⟨source, hl⟩ | ⟨start, stop, last, hl, hle, hstop, -⟩
  · exact .inl ⟨source, applyOne_of_locate_error hl⟩
  · cases hr : b.replaceRange start stop r.text with
    | error source => exact .inr (.inl ⟨source, applyOne_of_replaceRange_error hl hr⟩)
    | ok after =>
      -- What this replacement deletes ends where the cursor stands now.
      refine .inr (.inr ⟨last, _, after, applyOne_of_replaceRange hl hr, ?_⟩)
      omega

theorem applyAll_ne_negativeOffset (index : Nat) (b : Buffer) (rs : List Replacement) (h : 0 ≤ growth + cursor.wide)
    (i : Nat) (r : Replacement) : (applyAll index cursor growth b rs).2 ≠ some (.negativeOffset i r) := by
  induction rs generalizing index cursor growth b with
  | nil => simp [applyAll]
  | cons next rest ih =>
    rw [applyAll]
    rcases applyOne_cases index b next h with ⟨source, hone⟩ | ⟨source, hone⟩ | ⟨last, grown, after, hone, hnext⟩
    · simp [hone]
    · simp [hone]
    · rw [hone]
      exact ih (index + 1) after hnext

/-! ### Over the bytes of the document -/

/-- The document has grown by `growth` since it showed `cs`, and what was deleted lies behind the cursor. -/
structure Aligned (cs : List Char) (cursor : Cursor) (growth : Int) (b : Buffer) : Prop where
  standsIn : cursor.StandsIn cs
  behind : 0 ≤ growth + cursor.wide
  length : (b.size : Int) = growth + Utf16.width cs

theorem aligned_start (b : Buffer) : Aligned (Utf16.decode b.units) (.start (Utf8.encode b.text)) 0 b where
  standsIn := ⟨[], _, rfl, by rw [Buffer.encode_text, Cursor.start_flatMap]⟩
  behind := by simp [Cursor.start]
  length := by simp [Utf16.width_decode, Buffer.size]

theorem Aligned.step {cs : List Char} (h : Aligned cs cursor growth b) (index : Nat) (r : Replacement) :
    (∃ source, locate index cursor growth r = .error (.offset index r source)) ∨
    ∃ start stop last grown after, locate index cursor growth r = .ok (start, stop, last) ∧ start ≤ stop ∧
      stop ≤ b.size ∧ b.replaceRange start stop r.text = .ok after ∧
      applyOne index cursor growth b r = .ok (last, grown, after) ∧ Aligned cs last grown after := by
  rcases locate_cases index r h.behind with hl | ⟨start, stop, last, hl, hle, hstop, hstands⟩
  · exact .inl hl
  · -- The range ends where the cursor stands now, so not behind what is left of the document.
    have hlast := hstands cs h.standsIn
    have hwide := hlast.wide_le
    have hlength := h.length
    have hin : stop ≤ b.size := by omega
    have hr := Buffer.replaceRange_eq_ok hle hin r.text
    refine .inr ⟨start, stop, last, _, _, hl, hle, hin, hr, applyOne_of_replaceRange hl hr, hlast, ?_, ?_⟩
    · omega
    · simp only [Buffer.size, List.length_append, List.length_take, List.length_drop] at hlength hin ⊢
      omega

structure Placement where
  document : Buffer
  start : Nat
  stop : Nat
  text : String

/-- The ranges that replacements hand to a document, each with the document at that moment. -/
def placements (index : Nat) (cursor : Cursor) (growth : Int) (b : Buffer) : List Replacement → List Placement
  | [] => []
  | r :: rest => match locate index cursor growth r with
    | .error _ => []
    | .ok (start, stop, _) => ⟨b, start, stop, r.text⟩ :: match applyOne index cursor growth b r with
      | .error _ => []
      | .ok (cursor, growth, b) => placements (index + 1) cursor growth b rest

/-- Every range lies in its document, and the documents follow from one another up to the one that comes back. -/
theorem Aligned.run {cs : List Char} (h : Aligned cs cursor growth b) (index : Nat) (rs : List Replacement) :
    (∀ cause, (applyAll index cursor growth b rs).2 = some cause → ∃ i r source, cause = .offset i r source) ∧
    (∀ p ∈ placements index cursor growth b rs, p.start ≤ p.stop ∧ p.stop ≤ p.document.size) ∧
    (placements index cursor growth b rs).foldlM (fun document p => document.replaceRange p.start p.stop p.text) b =
      .ok (applyAll index cursor growth b rs).1 := by
  induction rs generalizing index cursor growth b with
  | nil => simp [applyAll, placements, pure, Except.pure]
  | cons r rest ih =>
    rw [applyAll, placements]
    rcases h.step index r with
      ⟨source, hl⟩ | ⟨start, stop, last, grown, after, hl, hle, hin, hr, hone, hnext⟩
    · rw [applyOne_of_locate_error hl, hl]
      refine ⟨fun cause hcause => ⟨index, r, source, ?_⟩, by simp, rfl⟩
      simpa using hcause.symm
    · obtain ⟨hfailure, hinside, hreplay⟩ := ih hnext (index + 1)
      rw [hone, hl]
      refine ⟨hfailure, ?_, ?_⟩
      · intro p hp
        rcases List.mem_cons.mp hp with rfl | hp
        · exact ⟨hle, hin⟩
        · exact hinside p hp
      · rw [List.foldlM_cons, hr]
        exact hreplay

end

/-- No list of replacements leads in front of a document.  Over the bytes of the document only the lookup can
fail: every range that is handed to the document lies in it, and these ranges, one after the other, make the
document that comes back. -/
theorem applyReplacements_stays_inside (source : List UInt8) (b : Buffer) (response : Response) :
    (∀ index r, (applyReplacements source b response).2 ≠ some (.negativeOffset index r)) ∧
    (source = Utf8.encode b.text →
      (∀ cause, (applyReplacements source b response).2 = some cause → ∃ index r lost, cause = .offset index r lost) ∧
      ∀ depth updates,
        (∀ p ∈ placements 0 (.start source) 0 (b.withBulk depth updates) response.replacements,
          p.start ≤ p.stop ∧ p.stop ≤ p.document.size) ∧
        (placements 0 (.start source) 0 (b.withBulk depth updates) response.replacements).foldlM
            (fun document p => document.replaceRange p.start p.stop p.text) (b.withBulk depth updates) =
          .ok ((applyReplacements source b response).1.withBulk depth updates)) := by
  obtain ⟨counted, hall⟩ := applyReplacements_eq source b response
  rw [hall]
  constructor
  · exact applyAll_ne_negativeOffset 0 b response.replacements (by simp [Cursor.start])
  · rintro rfl
    refine ⟨((aligned_start b).run 0 response.replacements).1, fun depth updates => ?_⟩
    obtain ⟨-, hinside, hreplay⟩ := (aligned_start (b.withBulk depth updates)).run 0 response.replacements
    rw [applyAll_withBulk] at hreplay
    exact ⟨hinside, hreplay⟩

/-- The first range ends inside a character, and the second one behind the largest word. -/
def overlong : Response := { replacements := [⟨0, 2, ""⟩, ⟨3, maxWord, "x"⟩] }

theorem applyReplacements_overlong :
    (∃ index r lost, (applyReplacements (Utf8.encode "aéb") (.ofText "aéb") overlong).2 = some (.offset index r lost)) ∧
    ∀ p ∈ placements 0 (.start (Utf8.encode "aéb")) 0 (.ofText "aéb") overlong.replacements,
      p.start ≤ p.stop ∧ p.stop ≤ p.document.size := by
  obtain ⟨hfailure, hinside⟩ := (applyReplacements_stays_inside (Utf8.encode "aéb") (.ofText "aéb") overlong).2
    (by decide +kernel)
  have hfails : (applyReplacements (Utf8.encode "aéb") (.ofText "aéb") overlong).2 =
      some (.offset 1 ⟨3, maxWord, "x"⟩ (.outOfRange maxWord 4)) := by decide +kernel
  obtain ⟨index, r, lost, hcause⟩ := hfailure _ hfails
  exact ⟨⟨index, r, lost, hcause ▸ hfails⟩, (hinside 0 0).1⟩

end Restyle
