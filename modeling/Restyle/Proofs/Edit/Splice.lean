import Restyle.Edit.Apply
import Restyle.Proofs.Edit.Offset
import Restyle.Proofs.Edit.Order

/-! # Replacements as a splice

Applying replacements that lie in order on boundaries of the text splices the document: what lies
outside the replaced ranges stays, unit for unit, and between these parts stand the replacement
texts.  Byte offsets refer to the text as it shows, in which each lone surrogate has the place of
one U+FFFD.
-/
namespace Restyle

/-- The parts of `items` outside the ranges of replacements, from place `done` on, with the texts of
the replacements between them.  `place` tells where in `items` a byte offset is. -/
def splice {α : Type} (place : Nat → Nat) (encode : String → List α) (items : List α) (done : Nat) :
    List Replacement → List α
  | [] => items.drop done
  | r :: rest => (items.take (place r.offset)).drop done ++ encode r.text ++
    splice place encode items (place r.stop) rest

/-- Where a byte offset of a source is in UTF-16 units: behind the units of the bytes before it. -/
def unitPlace (source : List UInt8) (offset : Nat) : Nat :=
  (Utf16.encode (Utf8.toText (source.take offset))).length

theorem take_size (front back : List Char) :
    ((front ++ back).flatMap String.utf8EncodeChar).take (Utf8.size front) =
      front.flatMap String.utf8EncodeChar := by
  rw [List.flatMap_append, Utf8.size, List.take_left]

theorem drop_size (front back : List Char) :
    ((front ++ back).flatMap String.utf8EncodeChar).drop (Utf8.size front) =
      back.flatMap String.utf8EncodeChar := by
  rw [List.flatMap_append, Utf8.size, List.drop_left]

theorem take_width (front back : List Char) :
    ((front ++ back).flatMap Utf16.ofChar).take (Utf16.width front) = front.flatMap Utf16.ofChar := by
  rw [List.flatMap_append, Utf16.width, List.take_left]

theorem drop_width (front back : List Char) :
    ((front ++ back).flatMap Utf16.ofChar).drop (Utf16.width front) = back.flatMap Utf16.ofChar := by
  rw [List.flatMap_append, Utf16.width, List.drop_left]

theorem unitPlace_size {cs front back : List Char} (h : cs = front ++ back) :
    unitPlace (cs.flatMap String.utf8EncodeChar) (Utf8.size front) = Utf16.width front := by
  rw [h, unitPlace, take_size, Utf8.toText, Utf8.decodeLossy_flatMap_utf8EncodeChar, Utf16.encode_ofList]
  rfl

namespace Buffer

theorem encode_text (b : Buffer) :
    Utf8.encode b.text = (Utf16.decode b.units).flatMap String.utf8EncodeChar :=
  Utf8.encode_ofList _

/-- In front of the place of a boundary the document shows exactly the bytes before it, and behind
that place exactly the bytes after it. -/
theorem text_cut {b : Buffer} {offset : Nat} (h : Utf8.IsBoundary (Utf8.encode b.text) offset) :
    Utf8.encode (Utf16.toText (b.units.take (unitPlace (Utf8.encode b.text) offset))) =
        (Utf8.encode b.text).take offset ∧
      Utf8.encode (Utf16.toText (b.units.drop (unitPlace (Utf8.encode b.text) offset))) =
        (Utf8.encode b.text).drop offset := by
  rw [encode_text] at h ⊢
  obtain ⟨front, back, hd, rfl⟩ := h.exists_cut
  obtain ⟨hf, hb⟩ := Utf16.decode_cut hd
  rw [unitPlace_size hd, hd, take_size, drop_size, Utf16.toText, Utf16.toText, hf, hb]
  exact ⟨Utf8.encode_ofList front, Utf8.encode_ofList back⟩

theorem replaceRange_eq_ok {b : Buffer} {start stop : Nat} (h : start ≤ stop) (h' : stop ≤ b.units.length)
    (text : String) : b.replaceRange start stop text = .ok { b with
      units := b.units.take start ++ Utf16.encode text ++ b.units.drop stop, stamp := b.stamp + 1 } := by
  have hin : (decide (stop < start) || decide (b.units.length < stop)) = false := by
    simp only [Bool.or_eq_false_iff, decide_eq_false_iff_not]
    omega
  rw [replaceRange, hin]
  rfl

end Buffer

/-- A replacement whose range is found in the document takes effect. -/
theorem applyOne_eq_ok {cursor mid last : Cursor} {growth : Int} {b : Buffer} {r : Replacement}
    {startWide stopWide start stop : Nat} (index : Nat)
    (hseek : cursor.seek r.offset = .ok (startWide, mid)) (hseek' : mid.seek r.stop = .ok (stopWide, last))
    (hstart : growth + startWide = start) (hstop : growth + stopWide = stop)
    (hle : start ≤ stop) (hin : stop ≤ b.units.length) :
    applyOne index cursor growth b r = .ok (last, growth + ((Utf16.encode r.text).length - (stop - start : Int)),
      { b with units := b.units.take start ++ Utf16.encode r.text ++ b.units.drop stop, stamp := b.stamp + 1 }) := by
  have hneg : (decide ((start : Int) < 0) || decide ((stop : Int) < 0)) = false := by
    simp only [Bool.or_eq_false_iff, decide_eq_false_iff_not]
    omega
  simp only [applyOne, hseek, hseek', Except.mapError, bind, Except.bind, hstart, hstop, hneg]
  simp [Buffer.replaceRange_eq_ok hle hin, pure, Except.pure]

variable {units done : List UInt16}

/-- One replacement moves the cursor behind its range; the gap before the range and the text of the
replacement are done then. -/
theorem applyOne_between {front gap hit back : List Char} {b : Buffer} {r : Replacement} (index : Nat)
    (hu : Utf16.decode units = front ++ (gap ++ (hit ++ back)))
    (hb : b.units = done ++ units.drop (Utf16.width front))
    (ho : r.offset = Utf8.size (front ++ gap)) (hs : r.stop = Utf8.size (front ++ gap ++ hit)) :
    ∃ next : List UInt16,
      next = done ++ (units.take (Utf16.width (front ++ gap))).drop (Utf16.width front) ++ Utf16.encode r.text ∧
      applyOne index (.between front (gap ++ (hit ++ back))) (done.length - Utf16.width front) b r =
        .ok (.between (front ++ gap ++ hit) back, next.length - Utf16.width (front ++ gap ++ hit),
          { b with units := next ++ units.drop (Utf16.width (front ++ gap ++ hit)), stamp := b.stamp + 1 }) := by
  refine ⟨_, rfl, ?_⟩
  have hlen := Utf16.width_decode units
  simp only [hu, Utf16.width_append] at hlen
  have hbl : b.units.length = done.length + (units.length - Utf16.width front) := by
    rw [hb, List.length_append, List.length_drop]
  have hseek := Cursor.seek_between front gap (hit ++ back)
  have hseek' := Cursor.seek_between (front ++ gap) hit back
  rw [← ho] at hseek
  rw [← hs] at hseek'
  -- In the document the range is shifted, as `done` stands for the front of the units.
  have hstart : (done.length - Utf16.width front : Int) + Utf16.width (front ++ gap) =
      (done.length + Utf16.width gap : Nat) := by
    rw [Utf16.width_append]
    omega
  have hstop : (done.length - Utf16.width front : Int) + Utf16.width (front ++ gap ++ hit) =
      (done.length + (Utf16.width gap + Utf16.width hit) : Nat) := by
    rw [Utf16.width_append, Utf16.width_append]
    omega
  rw [applyOne_eq_ok index hseek hseek' hstart hstop (by omega) (by omega)]
  have htake : b.units.take (done.length + Utf16.width gap) =
      done ++ (units.take (Utf16.width (front ++ gap))).drop (Utf16.width front) := by
    rw [hb, List.take_length_add_append, List.drop_take, Utf16.width_append, Nat.add_sub_cancel_left]
  have hdrop : b.units.drop (done.length + (Utf16.width gap + Utf16.width hit)) =
      units.drop (Utf16.width (front ++ gap ++ hit)) := by
    rw [hb, List.drop_length_add_append, List.drop_drop, Utf16.width_append, Utf16.width_append, Nat.add_assoc]
  rw [htake, hdrop]
  have hgap : ((units.take (Utf16.width (front ++ gap))).drop (Utf16.width front)).length = Utf16.width gap := by
    rw [List.length_drop, List.length_take, Utf16.width_append]
    omega
  refine congrArg (fun growth : Int => Except.ok (_, growth, _)) ?_
  simp only [List.length_append, hgap]
  simp only [Utf16.width_append]
  omega

/-- Replacements behind a cut of the text are all applied, and splice the units behind that cut. -/
theorem applyAll_between {front back : List Char} {b : Buffer} {rs : List Replacement} (index : Nat)
    (hr : Replacement.InOrder ((Utf16.decode units).flatMap String.utf8EncodeChar) rs)
    (hu : Utf16.decode units = front ++ back) (hle : ∀ r ∈ rs.head?, Utf8.size front ≤ r.offset)
    (hb : b.units = done ++ units.drop (Utf16.width front)) :
    applyAll index (.between front back) (done.length - Utf16.width front) b rs =
      ({ b with
        units := done ++ splice (unitPlace ((Utf16.decode units).flatMap String.utf8EncodeChar)) Utf16.encode
          units (Utf16.width front) rs
        stamp := b.stamp + rs.length }, none) := by
  -- `hb` carries the induction: the document is what is done so far, and the units behind the cut.
  induction rs generalizing index front back b done with
  | nil => rw [applyAll, splice, ← hb]; rfl
  | cons r rest ih =>
    obtain ⟨gap, hit, after, rfl, ho, hs⟩ := hr.exists_gap hu (hle r rfl)
    obtain ⟨hrest, hnext⟩ := hr.tail
    obtain ⟨next, hn, hone⟩ := applyOne_between index hu hb ho hs
    have hu₁ : Utf16.decode units = front ++ gap ++ (hit ++ after) := by rw [hu, List.append_assoc]
    have hu₂ : Utf16.decode units = front ++ gap ++ hit ++ after := by rw [hu₁, List.append_assoc (front ++ gap)]
    rw [applyAll, hone]
    simp only
    rw [ih (index + 1) hrest hu₂ (hs ▸ hnext) rfl, splice, ho, hs, unitPlace_size hu₁, unitPlace_size hu₂, hn]
    simp only [List.append_assoc, List.length_cons, Nat.add_right_comm _ 1, Nat.add_assoc]

/-- In a well-formed document the splice of the units and the splice of the bytes are one text. -/
theorem splice_text {cs front back : List Char} {rs : List Replacement}
    (hr : Replacement.InOrder (cs.flatMap String.utf8EncodeChar) rs) (hc : cs = front ++ back)
    (hle : ∀ r ∈ rs.head?, Utf8.size front ≤ r.offset) :
    ∃ result : List Char,
      splice (unitPlace (cs.flatMap String.utf8EncodeChar)) Utf16.encode (cs.flatMap Utf16.ofChar)
        (Utf16.width front) rs = result.flatMap Utf16.ofChar ∧
      splice id Utf8.encode (cs.flatMap String.utf8EncodeChar) (Utf8.size front) rs =
        result.flatMap String.utf8EncodeChar := by
  induction rs generalizing front back with
  | nil =>
    refine ⟨back, ?_, ?_⟩
    · rw [splice, hc, drop_width]
    · rw [splice, hc, drop_size]
  | cons r rest ih =>
    obtain ⟨gap, hit, after, rfl, ho, hs⟩ := hr.exists_gap hc (hle r rfl)
    obtain ⟨hrest, hnext⟩ := hr.tail
    have hc₁ : cs = front ++ gap ++ (hit ++ after) := by rw [hc, List.append_assoc]
    have hc₂ : cs = front ++ gap ++ hit ++ after := by rw [hc₁, List.append_assoc (front ++ gap)]
    obtain ⟨result, hunits, hbytes⟩ := ih hrest hc₂ (hs ▸ hnext)
    refine ⟨gap ++ r.text.toList ++ result, ?_, ?_⟩
    · rw [splice, ho, hs, unitPlace_size hc₁, unitPlace_size hc₂, hunits, hc₁, take_width, drop_width,
        List.flatMap_append, List.flatMap_append]
      rfl
    · rw [splice, ho, hs, id_eq, id_eq, hbytes, hc₁, take_size, drop_size, List.flatMap_append, List.flatMap_append]
      rfl

/-- Replacements in order are all applied, and with the first one the cursor is at the start. -/
theorem applyAll_start {b : Buffer} {rs : List Replacement}
    (h : Replacement.InOrder (Utf8.encode b.text) rs) :
    applyAll 0 (.start (Utf8.encode b.text)) 0 b rs =
      ({ b with
        units := splice (unitPlace (Utf8.encode b.text)) Utf16.encode b.units 0 rs
        stamp := b.stamp + rs.length }, none) := by
  have hr := h
  rw [Buffer.encode_text] at hr ⊢
  rw [Cursor.start_flatMap]
  have hnone : b.units = [] ++ b.units.drop (Utf16.width []) := rfl
  exact applyAll_between 0 hr rfl (Replacement.size_nil_le_offset rs) hnone

/-- Replacements that lie in order on boundaries of the text that a document shows are all applied.
They splice the units of the document at the places of their ends: in front of the place of a boundary
and behind it the document shows the two parts of its text.  A well-formed document then holds the
splice of its text, and a lone surrogate outside the ranges stays.  Each replacement moves the stamp on
by one, and no bulk update stays open. -/
theorem applyReplacements_eq_splice (b : Buffer) (response : Response)
    (h : Replacement.InOrder (Utf8.encode b.text) response.replacements) :
    ∃ after : Buffer, applyReplacements (Utf8.encode b.text) b response = (after, none) ∧
      after.units = splice (unitPlace (Utf8.encode b.text)) Utf16.encode b.units 0 response.replacements ∧
      (∀ offset, Utf8.IsBoundary (Utf8.encode b.text) offset →
        Utf8.encode (Utf16.toText (b.units.take (unitPlace (Utf8.encode b.text) offset))) =
            (Utf8.encode b.text).take offset ∧
          Utf8.encode (Utf16.toText (b.units.drop (unitPlace (Utf8.encode b.text) offset))) =
            (Utf8.encode b.text).drop offset) ∧
      (∀ text, b.units = Utf16.encode text → ∃ result, after.units = Utf16.encode result ∧
        Utf8.encode result = splice id Utf8.encode (Utf8.encode text) 0 response.replacements) ∧
      after.stamp = b.stamp + response.size ∧ after.bulkDepth = b.bulkDepth := by
  have hwell : ∀ text, b.units = Utf16.encode text → ∃ result,
      splice (unitPlace (Utf8.encode b.text)) Utf16.encode b.units 0 response.replacements = Utf16.encode result ∧
        Utf8.encode result = splice id Utf8.encode (Utf8.encode text) 0 response.replacements := by
    intro text ht
    have hb : b.text = text := by rw [Buffer.text, ht, Utf16.toText_encode]
    rw [hb] at h ⊢
    obtain ⟨result, hunits, hbytes⟩ := splice_text h rfl (Replacement.size_nil_le_offset _)
    refine ⟨String.ofList result, ?_, ?_⟩
    · rw [Utf16.encode_ofList, ← hunits, ht]
      rfl
    · rw [Utf8.encode_ofList, ← hbytes]
      rfl
  unfold applyReplacements
  split
  · have hall := congrArg (fun done => (done.1.endBulk, done.2)) (applyAll_start (b := b.beginBulk) h)
    refine ⟨_, hall, rfl, fun _ => Buffer.text_cut, hwell, rfl, rfl⟩
  · have hall := applyAll_start h
    refine ⟨_, hall, rfl, fun _ => Buffer.text_cut, hwell, rfl, rfl⟩

/-- Between two lone surrogates a character of two bytes gives way and a text is put in; both surrogates
stay. -/
theorem applyReplacements_lone_surrogates :
    ∃ after : Buffer,
      applyReplacements (Utf8.encode (Buffer.text { units := [0xD800, 0xE9, 0x62, 0xDC00] }))
        { units := [0xD800, 0xE9, 0x62, 0xDC00] } { replacements := [⟨3, 2, "x"⟩, ⟨6, 0, "\n"⟩] } = (after, none) ∧
      after.units = [0xD800, 0x78, 0x62, 0xA, 0xDC00] ∧ after.stamp = 2 := by
  obtain ⟨after, hrun, hunits, -, -, hstamp, -⟩ := applyReplacements_eq_splice
    { units := [0xD800, 0xE9, 0x62, 0xDC00] } { replacements := [⟨3, 2, "x"⟩, ⟨6, 0, "\n"⟩] }
    ⟨by decide, by decide, by decide⟩
  exact ⟨after, hrun, hunits.trans (by decide +kernel), hstamp⟩

end Restyle
