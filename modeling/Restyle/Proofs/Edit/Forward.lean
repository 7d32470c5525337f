import Restyle.Proofs.Edit.Places

/-! # Requests that go forward

A cursor jumps over whole code points.  So of requests that never go back only those fail that lie inside of a
code point into which an earlier one led, and the answers that are given never go back.
-/
namespace Restyle.Cursor

def Spans (bytes : List UInt8) (front stop : Nat) : Prop :=
  ∃ wide lead, Place bytes front wide ∧ bytes[front]? = some lead ∧ stop = front + (codePointSize lead).1

section
variable {bytes : List UInt8} {target byte wide stop units : Nat} {c : Cursor}

theorem Spans.le_of_lt {front : Nat} (h : Spans bytes front stop) (hplace : Place bytes byte wide) (hlt : front < byte) :
    stop ≤ byte := by
  obtain ⟨_, lead, hfront, hlead, rfl⟩ := h
  exact hfront.next_le hlead hplace hlt

/-- Code points do not overlap. -/
theorem Spans.stop_unique {front front' stop' : Nat} (h : Spans bytes front stop) (h' : Spans bytes front' stop')
    (hlt : front < stop') (hlt' : front' < stop) : stop = stop' := by
  obtain ⟨wide, lead, hplace, hlead, hstop⟩ := id h
  obtain ⟨wide', lead', hplace', hlead', hstop'⟩ := id h'
  have hle : ¬front < front' := fun hbefore => Nat.not_lt.mpr (h.le_of_lt hplace' hbefore) hlt'
  have hge : ¬front' < front := fun hbefore => Nat.not_lt.mpr (h'.le_of_lt hplace hbefore) hlt
  obtain rfl : front = front' := by omega
  rw [hlead] at hlead'
  cases hlead'
  omega

/-- A walk that moves on ends behind a code point that it had to enter. -/
theorem Place.spans_of_walk? (h : Place bytes byte wide) (hwalk : walk? bytes target byte wide = some (stop, units)) :
    stop = byte ∨ ∃ front, Spans bytes front stop ∧ front < target := by
  fun_induction walk? bytes target byte wide with
  | case1 => cases hwalk
  | case2 byte wide hlt lead hlead ih =>
    rcases ih (h.next hlead) hwalk with rfl | hspans
    · exact .inr ⟨byte, ⟨wide, lead, h, hlead, rfl⟩, hlt⟩
    · exact .inr hspans
  | case3 =>
    cases hwalk
    exact .inl rfl

/-! ### Runs -/

theorem Over.ask_le (hc : Over bytes c) (target : Nat) :
    c.byte ≤ (c.ask target).2.byte ∧ (target ≤ bytes.length → target ≤ (c.ask target).2.byte) := by
  obtain ⟨hback, h⟩ | ⟨-, hout, h⟩ | ⟨hle, hin, last, h, -, hwalk⟩ := hc.ask_cases target
  · rw [h]
    exact ⟨Nat.le_refl _, fun _ => Nat.le_of_lt hback⟩
  · rw [h]
    exact ⟨Nat.le_refl _, fun hin => absurd hin (Nat.not_le.mpr hout)⟩
  · rw [h]
    exact ⟨(le_of_walk? hwalk).1, fun _ => (le_of_walk? hwalk).2⟩

theorem Over.byte_le_after (hc : Over bytes c) (requests : List Nat) : c.byte ≤ (c.after requests).byte := by
  induction requests generalizing c with
  | nil => exact Nat.le_refl _
  | cons target requests ih => exact Nat.le_trans (hc.ask_le target).1 (ih (hc.ask target))

/-- Behind a cursor lies everything it was asked for. -/
theorem Over.le_after (hc : Over bytes c) {requests : List Nat} (hin : ∀ o ∈ requests, o ≤ bytes.length) :
    ∀ o ∈ requests, o ≤ (c.after requests).byte := by
  induction requests generalizing c with
  | nil => simp
  | cons target requests ih =>
    intro o ho
    rcases List.mem_cons.mp ho with rfl | ho
    · have hreached := (hc.ask_le o).2 (hin o List.mem_cons_self)
      exact Nat.le_trans hreached ((hc.ask o).byte_le_after requests)
    · exact ih (hc.ask target) (fun o ho => hin o (List.mem_cons_of_mem _ ho)) o ho

/-- A cursor that was moved stands behind a code point that some request entered. -/
theorem Over.spans_after (hc : Over bytes c) (requests : List Nat) : (c.after requests).byte = c.byte ∨
    ∃ front, Spans bytes front (c.after requests).byte ∧ ∃ o ∈ requests, front < o := by
  induction requests generalizing c with
  | nil => exact .inl rfl
  | cons target requests ih =>
    rcases ih (hc.ask target) with hstays | ⟨front, hspans, o, ho, hlt⟩
    · have hafter : (c.after (target :: requests)).byte = (c.ask target).2.byte := hstays
      obtain ⟨-, h⟩ | ⟨-, -, h⟩ | ⟨-, -, last, h, -, hwalk⟩ := hc.ask_cases target
      · exact .inl (by rw [hafter, h])
      · exact .inl (by rw [hafter, h])
      · rw [hafter, h]
        refine (hc.place.spans_of_walk? hwalk).imp_right ?_
        rintro ⟨front, hspans, hlt⟩
        exact ⟨front, hspans, target, List.mem_cons_self, hlt⟩
    · exact .inr ⟨front, hspans, o, List.mem_cons_of_mem _ ho, hlt⟩

theorem getElem?_answers (c : Cursor) (requests : List Nat) (i : Nat) : (c.answers requests)[i]? =
    requests[i]?.map fun target => ((c.after (requests.take i)).ask target).1 := by
  induction requests generalizing c i with
  | nil => simp [answers]
  | cons target requests ih =>
    cases i with
    | zero => simp [answers, after]
    | succ i => simp [answers, after, ih]

/-! ### Answers that never go back -/

theorem wide_le_ask (c : Cursor) (target : Nat) : c.wide ≤ (c.ask target).2.wide := by
  unfold ask
  split
  · rename_i hseek
    exact (wide_of_seek hseek).2
  · exact Nat.le_refl _

theorem wide_of_ask (h : (c.ask target).1 = .ok wide) : (c.ask target).2.wide = wide := by
  unfold ask at h ⊢
  split at h
  · rename_i hseek
    cases h
    exact (wide_of_seek hseek).1
  · cases h

theorem wide_le_of_mem_answers {requests : List Nat} (h : .ok wide ∈ c.answers requests) : c.wide ≤ wide := by
  induction requests generalizing c with
  | nil => cases h
  | cons target requests ih =>
    refine Nat.le_trans (wide_le_ask c target) ?_
    rcases List.mem_cons.mp h with hfirst | hlater
    · exact Nat.le_of_eq (wide_of_ask hfirst.symm)
    · exact ih hlater

theorem pairwise_answers (c : Cursor) (requests : List Nat) :
    ((c.answers requests).filterMap Except.toOption).Pairwise (· ≤ ·) := by
  induction requests generalizing c with
  | nil => exact .nil
  | cons target requests ih =>
    cases hfirst : (c.ask target).1 with
    | error e =>
      rw [answers, hfirst, List.filterMap_cons_none rfl]
      exact ih (c.ask target).2
    | ok wide =>
      have hlater : ∀ later ∈ ((c.ask target).2.answers requests).filterMap Except.toOption, wide ≤ later := by
        intro later hmem
        obtain ⟨answer, hanswer, hlater⟩ := List.mem_filterMap.mp hmem
        cases answer with
        | error e => cases hlater
        | ok units =>
          cases hlater
          rw [← wide_of_ask hfirst]
          exact wide_le_of_mem_answers hanswer
      have hgiven : (.ok wide : Except OffsetError Nat).toOption = some wide := rfl
      rw [answers, hfirst, List.filterMap_cons_some hgiven]
      exact List.pairwise_cons.mpr ⟨hlater, ih (c.ask target).2⟩

/-! ### Requests that fail -/

/-- Of requests within the bytes that never go back, those fail that lie inside of a code point which an earlier
one entered. -/
theorem error_iff_of_forward {earlier : List Nat} (hin : ∀ o ∈ earlier, o ≤ bytes.length) (htarget : target ≤ bytes.length)
    (hforward : ∀ o ∈ earlier, o ≤ target) (e : OffsetError) :
    (((start bytes).after earlier).ask target).1 = .error e ↔ ∃ front stop, Spans bytes front stop ∧ target < stop ∧
      (∃ o ∈ earlier, front < o) ∧ e = .rewind target stop := by
  have hc : Over bytes ((start bytes).after earlier) := (over_start bytes).after earlier
  rw [hc.error_iff]
  constructor
  · rintro (⟨hback, rfl⟩ | ⟨-, hout, -⟩)
    · rcases (over_start bytes).spans_after earlier with hfirst | ⟨front, hspans, hentered⟩
      · rw [hfirst] at hback
        exact absurd hback (Nat.not_lt_zero target)
      · exact ⟨front, _, hspans, hback, hentered, rfl⟩
    · omega
  · rintro ⟨front, stop, hspans, hinside, ⟨o, ho, hlt⟩, rfl⟩
    have hle := (over_start bytes).le_after hin o ho
    have hpassed := hspans.le_of_lt hc.place (Nat.lt_of_lt_of_le hlt hle)
    rcases (over_start bytes).spans_after earlier with hfirst | ⟨front', hspans', o', ho', hlt'⟩
    · have hzero : (start bytes).byte = 0 := rfl
      omega
    · -- Both code points hold the target, so they are the same one.
      have hbefore := hforward o' ho'
      obtain rfl := hspans.stop_unique hspans' (by omega) (by omega)
      exact .inl ⟨by omega, rfl⟩

end

/-- Requests within the bytes that never go back are answered with offsets that never go back, and one of them
fails exactly if it lies inside of a code point which an earlier one entered: then it is before the cursor, which
stands behind that code point. -/
theorem answers_forward {bytes : List UInt8} {requests : List Nat} (hforward : requests.Pairwise (· ≤ ·))
    (hin : ∀ o ∈ requests, o ≤ bytes.length) :
    (((start bytes).answers requests).filterMap Except.toOption).Pairwise (· ≤ ·) ∧
    ∀ i target, requests[i]? = some target → ∀ e, ((start bytes).answers requests)[i]? = some (.error e) ↔
      ∃ front stop, Spans bytes front stop ∧ target < stop ∧ (∃ o ∈ requests.take i, front < o) ∧
        e = .rewind target stop := by
  refine ⟨pairwise_answers (start bytes) requests, fun i target htarget e => ?_⟩
  have hsplit : requests.take i ++ target :: requests.drop (i + 1) = requests := by
    obtain ⟨hlt, rfl⟩ := List.getElem?_eq_some_iff.mp htarget
    rw [← List.drop_eq_getElem_cons hlt, List.take_append_drop]
  rw [getElem?_answers, htarget, Option.map_some, Option.some_inj]
  refine error_iff_of_forward (fun o ho => hin o (List.mem_of_mem_take ho)) ?_ (fun o ho => ?_) e
  · exact hin target (List.mem_of_getElem? htarget)
  · rw [← hsplit] at hforward
    exact (List.pairwise_append.mp hforward).2.2 o ho target List.mem_cons_self

/-- After the second byte of a character its third byte is refused. -/
theorem answers_forward_inside :
    [0, 2, 3, 4].Pairwise (· ≤ ·) ∧ (∀ o ∈ [0, 2, 3, 4], o ≤ (Utf8.encode "a€b").length) ∧
      ∃ front stop, Spans (Utf8.encode "a€b") front stop ∧ 3 < stop ∧ (∃ o ∈ [0, 2, 3, 4].take 2, front < o) ∧
        OffsetError.rewind 3 4 = .rewind 3 stop := by
  have hforward : [0, 2, 3, 4].Pairwise (· ≤ ·) := by decide
  have hin : ∀ o ∈ [0, 2, 3, 4], o ≤ (Utf8.encode "a€b").length := by decide +kernel
  refine ⟨hforward, hin, ?_⟩
  exact ((answers_forward hforward hin).2 2 3 rfl (.rewind 3 4)).mp (by decide +kernel)

/-- Requests that never go back can fail: where an offset inside of a character comes again, where a larger one
inside of the same character follows, and where the end of the bytes comes again that cuts a character short. -/
theorem answers_not_forward :
    ([1, 1].Pairwise (· ≤ ·) ∧ (∀ o ∈ [1, 1], o ≤ (Utf8.encode "é").length) ∧
      (start (Utf8.encode "é")).answers [1, 1] = [.ok 1, .error (.rewind 1 2)]) ∧
    (start (Utf8.encode "€")).answers [1, 2] = [.ok 1, .error (.rewind 2 3)] ∧
    (start [0xC3]).answers [1, 1] = [.ok 1, .error (.rewind 1 2)] := by
  decide +kernel

end Restyle.Cursor
