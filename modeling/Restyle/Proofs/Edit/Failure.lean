import Restyle.Proofs.Edit.Stamp

/-! # Replacements that fail on the way

A replacement that cannot be applied ends the list.  The document is then as the replacements before it
leave it, which is the document as it was if the first one fails.  Bulk updates change nothing about this:
they are open as before, and only their number may have grown.
-/
namespace Restyle

namespace Buffer

def withBulk (b : Buffer) (depth updates : Nat) : Buffer := { b with bulkDepth := depth, bulkUpdates := updates }

theorem replaceRange_withBulk (b : Buffer) (depth updates start stop : Nat) (text : String) :
    (b.withBulk depth updates).replaceRange start stop text =
      (b.replaceRange start stop text).map (·.withBulk depth updates) := by
  unfold replaceRange withBulk
  dsimp only
  split <;> rfl

end Buffer

/-- What was applied, with the counts of bulk updates in the document replaced. -/
theorem applyOne_withBulk (index : Nat) (cursor : Cursor) (growth : Int) (b : Buffer) (r : Replacement)
    (depth updates : Nat) : applyOne index cursor growth (b.withBulk depth updates) r =
      (applyOne index cursor growth b r).map fun done => (done.1, done.2.1, done.2.2.withBulk depth updates) := by
  simp only [applyOne, bind, Except.bind]
  split
  · rfl
  split
  · rfl
  split
  · rfl
  rw [Buffer.replaceRange_withBulk]
  cases b.replaceRange _ _ r.text <;> rfl

theorem applyAll_withBulk (index : Nat) (cursor : Cursor) (growth : Int) (b : Buffer) (rs : List Replacement)
    (depth updates : Nat) : applyAll index cursor growth (b.withBulk depth updates) rs =
      ((applyAll index cursor growth b rs).1.withBulk depth updates, (applyAll index cursor growth b rs).2) := by
  induction rs generalizing index cursor growth b with
  | nil => rfl
  | cons r rest ih =>
    rw [applyAll, applyAll, applyOne_withBulk]
    cases applyOne index cursor growth b r with
    | error cause => rfl
    | ok done => exact ih (index + 1) done.1 done.2.1 done.2.2

theorem index_applyOne {index : Nat} {cursor : Cursor} {growth : Int} {b : Buffer} {r : Replacement}
    {cause : ApplyError} (h : applyOne index cursor growth b r = .error cause) : cause.index = index := by
  have hmapped {ε α : Type} {x : Except ε α} {f : ε → ApplyError} (hf : ∀ e, (f e).index = index)
      (hx : x.mapError f = .error cause) : cause.index = index := by
    cases x with
    | ok a => cases hx
    | error e =>
      cases hx
      exact hf e
  simp only [applyOne, bind, Except.bind] at h
  split at h
  · rename_i hstart
    cases h
    exact hmapped (fun _ => rfl) hstart
  split at h
  · rename_i hstop
    cases h
    exact hmapped (fun _ => rfl) hstop
  split at h
  · cases h
    rfl
  split at h
  · rename_i hrange
    cases h
    exact hmapped (fun _ => rfl) hrange
  · cases h

/-- The replacements before the one that fails are applied. -/
theorem applyAll_of_failure {index : Nat} {cursor : Cursor} {growth : Int} {b after : Buffer}
    {rs : List Replacement} {cause : ApplyError} (h : applyAll index cursor growth b rs = (after, some cause)) :
    ∃ done r rest, rs = done ++ r :: rest ∧ cause.index = index + done.length ∧
      applyAll index cursor growth b done = (after, none) := by
  induction rs generalizing index cursor growth b with
  | nil => cases h
  | cons r rest ih =>
    rw [applyAll] at h
    split at h
    · rename_i hone
      cases h
      exact ⟨[], r, rest, rfl, index_applyOne hone, rfl⟩
    · rename_i cursor' growth' b' hone
      obtain ⟨done, failing, others, rfl, hindex, hdone⟩ := ih h
      refine ⟨r :: done, failing, others, rfl, ?_, ?_⟩
      · rw [hindex, List.length_cons]
        omega
      · rw [applyAll, hone]
        exact hdone

/-- A bulk update around the replacements changes no more than the counts of bulk updates. -/
theorem applyReplacements_eq (source : List UInt8) (b : Buffer) (response : Response) :
    ∃ updates, applyReplacements source b response =
      ((applyAll 0 (.start source) 0 b response.replacements).1.withBulk b.bulkDepth updates,
        (applyAll 0 (.start source) 0 b response.replacements).2) := by
  have hbulk := applyAll_withBulk 0 (.start source) 0 b response.replacements
  unfold applyReplacements
  split
  · refine ⟨b.beginBulk.bulkUpdates, ?_⟩
    exact congrArg (fun done => (done.1.endBulk, done.2)) (hbulk (b.bulkDepth + 1) b.beginBulk.bulkUpdates)
  · exact ⟨b.bulkUpdates, hbulk b.bulkDepth b.bulkUpdates⟩

/-- Where the replacements of a response fail, those before the failing one succeed, and leave the document
with the same content and stamp. -/
theorem applyReplacements_of_failure {source : List UInt8} {b after : Buffer} {response : Response} {cause : ApplyError}
    (h : applyReplacements source b response = (after, some cause)) :
    ∃ done failing rest mid, response.replacements = done ++ failing :: rest ∧ cause.index = done.length ∧
      applyReplacements source b { response with replacements := done } = (mid, none) ∧
      after.units = mid.units ∧ after.stamp = mid.stamp := by
  obtain ⟨updates, hall⟩ := applyReplacements_eq source b response
  rw [hall, Prod.mk.injEq] at h
  obtain ⟨hafter, hcause⟩ := h
  obtain ⟨done, failing, rest, hlist, hindex, hdone⟩ := applyAll_of_failure (Prod.ext rfl hcause)
  obtain ⟨updates', hall'⟩ := applyReplacements_eq source b { response with replacements := done }
  rw [hdone] at hall'
  refine ⟨done, failing, rest, _, hlist, ?_, hall', ?_, ?_⟩
  · rw [hindex, Nat.zero_add]
  · rw [← hafter]
    rfl
  · rw [← hafter]
    rfl

/-! ### Bulk updates -/

theorem bulkUpdates_applyAll (index : Nat) (cursor : Cursor) (growth : Int) (b : Buffer) (rs : List Replacement) :
    (applyAll index cursor growth b rs).1.bulkUpdates = b.bulkUpdates :=
  congrArg (·.1.bulkUpdates) (applyAll_withBulk index cursor growth b rs b.bulkDepth b.bulkUpdates)

theorem bulkUpdates_applyReplacements (source : List UInt8) (b : Buffer) (response : Response) :
    (applyReplacements source b response).1.bulkUpdates =
      b.bulkUpdates + if b.bulkDepth = 0 ∧ 1000 < response.size then 1 else 0 := by
  unfold applyReplacements
  split
  · rename_i hbulk
    have hupdates : (applyAll 0 (.start source) 0 b.beginBulk response.replacements).1.endBulk.bulkUpdates =
      b.beginBulk.bulkUpdates := bulkUpdates_applyAll 0 (.start source) 0 b.beginBulk response.replacements
    refine hupdates.trans ?_
    -- In a bulk update that is open already, the new one is not outermost.
    by_cases hdepth : b.bulkDepth = 0
    · have hlong : bulkThreshold < response.replacements.length := by simpa [Buffer.inBulk, hdepth] using hbulk
      rw [if_pos ⟨hdepth, hlong⟩]
      simp [Buffer.beginBulk, hdepth]
    · simp [Buffer.beginBulk, hdepth]
  · rename_i hplain
    simp only [Bool.or_eq_true, decide_eq_true_eq, not_or] at hplain
    rw [bulkUpdates_applyAll, if_neg fun h => hplain.2 h.2]
    rfl

/-- Where a replacement fails, it and all after it have no effect: the document is left as the replacements before it
leave it, which succeed.  Content, stamp and outcome are those of the replacements without a bulk update, whatever
bulk updates are open; afterwards the same ones are open, and one more is counted exactly if none was open and
the list is long. -/
theorem applyReplacements_leaves_taken (source : List UInt8) (b : Buffer) (response : Response) :
    (∀ cause, (applyReplacements source b response).2 = some cause →
      cause.index < response.size ∧ ∃ mid,
        applyReplacements source b { response with replacements := response.replacements.take cause.index } = (mid, none) ∧
        (applyReplacements source b response).1.units = mid.units ∧
        (applyReplacements source b response).1.stamp = mid.stamp) ∧
    (∀ depth updates,
      (applyReplacements source (b.withBulk depth updates) response).1.units =
          (applyAll 0 (.start source) 0 b response.replacements).1.units ∧
        (applyReplacements source (b.withBulk depth updates) response).1.stamp =
          (applyAll 0 (.start source) 0 b response.replacements).1.stamp ∧
        (applyReplacements source (b.withBulk depth updates) response).2 =
          (applyAll 0 (.start source) 0 b response.replacements).2) ∧
    (applyReplacements source b response).1.bulkDepth = b.bulkDepth ∧
    (applyReplacements source b response).1.bulkUpdates =
      b.bulkUpdates + if b.bulkDepth = 0 ∧ 1000 < response.size then 1 else 0 := by
  refine ⟨fun cause hcause => ?_, fun depth updates => ?_, ?_, bulkUpdates_applyReplacements source b response⟩
  · obtain ⟨done, failing, rest, mid, hlist, hindex, hdone, hunits, hstamp⟩ :=
      applyReplacements_of_failure (Prod.ext rfl hcause)
    have htake : response.replacements.take cause.index = done := by rw [hlist, hindex, List.take_left]
    refine ⟨?_, mid, htake ▸ hdone, hunits, hstamp⟩
    rw [Response.size, hlist, hindex, List.length_append, List.length_cons]
    omega
  · obtain ⟨counted, hall⟩ := applyReplacements_eq source (b.withBulk depth updates) response
    rw [hall, applyAll_withBulk]
    exact ⟨rfl, rfl, rfl⟩
  · obtain ⟨counted, hall⟩ := applyReplacements_eq source b response
    rw [hall]
    rfl

def reachingOut : Response := { replacements := [⟨0, 1, "x"⟩, ⟨1, 5, "y"⟩] }

/-- A bulk update is open in the document, and stays open. -/
theorem applyReplacements_reachingOut :
    (applyReplacements [0x61, 0x62] { units := [0x61, 0x62], bulkDepth := 1 } reachingOut).2 =
        some (.offset 1 ⟨1, 5, "y"⟩ (.outOfRange 6 2)) ∧
      ∃ mid, applyReplacements [0x61, 0x62] { units := [0x61, 0x62], bulkDepth := 1 }
          { reachingOut with replacements := [⟨0, 1, "x"⟩] } = (mid, none) ∧
        (applyReplacements [0x61, 0x62] { units := [0x61, 0x62], bulkDepth := 1 } reachingOut).1.units = mid.units := by
  have hfails : (applyReplacements [0x61, 0x62] { units := [0x61, 0x62], bulkDepth := 1 } reachingOut).2 =
      some (.offset 1 ⟨1, 5, "y"⟩ (.outOfRange 6 2)) := by decide +kernel
  obtain ⟨-, mid, hmid, hunits, -⟩ := (applyReplacements_leaves_taken [0x61, 0x62]
    { units := [0x61, 0x62], bulkDepth := 1 } reachingOut).1 _ hfails
  exact ⟨hfails, mid, hmid, hunits⟩

end Restyle
