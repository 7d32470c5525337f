import Restyle.Proofs.Edit.Stamp

/-! # Documents over time

A document goes through edits and brackets of bulk updates in any order and balance.  Its stamp counts the edits
that took effect, so that at two moments with the same stamp it has the same content.  Of the brackets it keeps
only how many are open, and that is enough to tell whether some bulk update is never closed.
-/
namespace Restyle.Buffer

inductive Action where
  | replaceRange (start stop : Nat) (text : String)
  | setText (text : String)
  | beginBulk
  | endBulk
deriving DecidableEq

def act (b : Buffer) : Action → Buffer
  | .replaceRange start stop text =>
    match b.replaceRange start stop text with
    | .ok after => after
    | .error _ => b
  | .setText text => b.setText text
  | .beginBulk => b.beginBulk
  | .endBulk => b.endBulk

def run (b : Buffer) (actions : List Action) : Buffer := actions.foldl act b

/-- Whether an action is an edit that takes effect. -/
def mutates (b : Buffer) : Action → Bool
  | .replaceRange start stop text => (b.replaceRange start stop text).isOk
  | .setText _ => true
  | .beginBulk | .endBulk => false

@[simp] theorem run_nil (b : Buffer) : b.run [] = b := rfl

@[simp] theorem run_cons (b : Buffer) (a : Action) (actions : List Action) : b.run (a :: actions) = (b.act a).run actions :=
  rfl

@[simp] theorem run_append (b : Buffer) (before later : List Action) : b.run (before ++ later) = (b.run before).run later :=
  List.foldl_append

variable {b : Buffer}

/-! ### Stamps -/

theorem replaceRange_eq_error_iff {start stop : Nat} {text : String} {e : RangeError} :
    b.replaceRange start stop text = .error e ↔ (stop < start ∨ b.size < stop) ∧ e = ⟨start, stop, b.size⟩ := by
  have hrange : (decide (stop < start) || decide (b.units.length < stop)) = decide (stop < start ∨ b.size < stop) :=
    (Bool.decide_or _ _).symm
  rw [replaceRange, hrange]
  by_cases h : stop < start ∨ b.size < stop
  · rw [decide_eq_true h, if_pos rfl, Except.error.injEq]
    exact ⟨fun he => ⟨h, he.symm⟩, fun he => he.2.symm⟩
  · simp [h]

theorem stamp_act (b : Buffer) (a : Action) : (b.act a).stamp = b.stamp + if b.mutates a then 1 else 0 := by
  cases a with
  | replaceRange start stop text =>
    cases h : b.replaceRange start stop text with
    | error e => simp [act, mutates, h, Except.isOk, Except.toBool]
    | ok after => simp [act, mutates, h, Except.isOk, Except.toBool, stamp_replaceRange h]
  | setText text => rfl
  | beginBulk => rfl
  | endBulk => rfl

theorem units_act (h : b.mutates a = false) : (b.act a).units = b.units := by
  cases a with
  | replaceRange start stop text =>
    cases hr : b.replaceRange start stop text with
    | error e => simp [act, hr]
    | ok after => simp [mutates, hr, Except.isOk, Except.toBool] at h
  | setText text => cases h
  | beginBulk => rfl
  | endBulk => rfl

theorem advances_run (b : Buffer) (actions : List Action) : b.Advances (b.run actions) := by
  induction actions generalizing b with
  | nil => exact Advances.refl b
  | cons a actions ih =>
    refine Advances.trans ?_ (ih (b.act a))
    have hstamp := stamp_act b a
    cases h : b.mutates a with
    | false => exact .inl ⟨units_act h, by simpa [h] using hstamp⟩
    | true => exact .inr (by simp [hstamp, h])

/-! ### Brackets -/

/-- Stretches in which just the bulk updates that are begun are ended. -/
inductive Balanced : List Action → Prop
  | nil : Balanced []
  | edit {a : Action} {rest : List Action} (hbegin : a ≠ .beginBulk) (hend : a ≠ .endBulk) (h : Balanced rest) :
      Balanced (a :: rest)
  | bulk {inner rest : List Action} (h : Balanced inner) (h' : Balanced rest) :
      Balanced (.beginBulk :: (inner ++ .endBulk :: rest))

def Closes (later : List Action) : Prop := ∃ inner rest, later = inner ++ .endBulk :: rest ∧ Balanced inner

def IsOpen (history : List Action) : Prop := ∃ before later, history = before ++ .beginBulk :: later ∧ ¬Closes later

/-- A history consists of edits, of ends that have no begin, of bulk updates and of begins that have no end. -/
@[elab_as_elim]
theorem Action.induct {motive : List Action → Prop} (nil : motive [])
    (edit : ∀ a rest, a ≠ .beginBulk → a ≠ .endBulk → motive rest → motive (a :: rest))
    (surplus : ∀ rest, motive rest → motive (.endBulk :: rest))
    (closed : ∀ inner rest, Balanced inner → motive rest → motive (.beginBulk :: (inner ++ .endBulk :: rest)))
    (unclosed : ∀ rest, ¬Closes rest → motive rest → motive (.beginBulk :: rest)) (history : List Action) :
    motive history := by
  induction hn : history.length using Nat.strongRecOn generalizing history with
  | ind n ih =>
    cases history with
    | nil => exact nil
    | cons a rest =>
      have hrest : motive rest := ih rest.length (by simp [← hn]) rest rfl
      by_cases hbegin : a = .beginBulk
      · subst hbegin
        by_cases hcloses : Closes rest
        · obtain ⟨inner, rest, rfl, hinner⟩ := hcloses
          exact closed inner rest hinner (ih rest.length (by simp [← hn]; omega) rest rfl)
        · exact unclosed rest hcloses hrest
      by_cases hend : a = .endBulk
      · subst hend
        exact surplus rest hrest
      · exact edit a rest hbegin hend hrest

@[simp] theorem bulkDepth_beginBulk (b : Buffer) : (b.act .beginBulk).bulkDepth = b.bulkDepth + 1 := rfl

@[simp] theorem bulkDepth_endBulk (b : Buffer) : (b.act .endBulk).bulkDepth = b.bulkDepth - 1 := rfl

theorem bulk_replaceRange {after : Buffer} {start stop : Nat} {text : String}
    (h : b.replaceRange start stop text = .ok after) :
    after.bulkDepth = b.bulkDepth ∧ after.bulkUpdates = b.bulkUpdates := by
  unfold replaceRange at h
  split at h
  · cases h
  · cases h
    exact ⟨rfl, rfl⟩

/-- Edits leave bulk updates alone. -/
theorem bulk_act {a : Action} (hbegin : a ≠ .beginBulk) (hend : a ≠ .endBulk) (b : Buffer) :
    (b.act a).bulkDepth = b.bulkDepth ∧ (b.act a).bulkUpdates = b.bulkUpdates := by
  cases a with
  | replaceRange start stop text =>
    cases hr : b.replaceRange start stop text with
    | error e => simp [act, hr]
    | ok after => simpa [act, hr] using bulk_replaceRange hr
  | setText text => exact ⟨rfl, rfl⟩
  | beginBulk => exact absurd rfl hbegin
  | endBulk => exact absurd rfl hend

theorem Balanced.bulkDepth_run {s : List Action} (h : Balanced s) (b : Buffer) : (b.run s).bulkDepth = b.bulkDepth := by
  induction h generalizing b with
  | nil => rfl
  | edit hbegin hend _ ih => rw [run_cons, ih, (bulk_act hbegin hend b).1]
  | bulk _ _ ih ih' => simp [ih, ih']

theorem Closes.cons_edit {a : Action} {later : List Action} (hbegin : a ≠ .beginBulk) (hend : a ≠ .endBulk)
    (h : Closes later) : Closes (a :: later) := by
  obtain ⟨inner, rest, rfl, hinner⟩ := h
  exact ⟨a :: inner, rest, rfl, hinner.edit hbegin hend⟩

theorem Closes.cons_bulk {inner later : List Action} (hinner : Balanced inner) (h : Closes later) :
    Closes (.beginBulk :: (inner ++ .endBulk :: later)) := by
  obtain ⟨inner', rest, rfl, hinner'⟩ := h
  exact ⟨.beginBulk :: (inner ++ .endBulk :: inner'), rest, by simp, .bulk hinner hinner'⟩

/-- A bulk update that is not closed stays open. -/
theorem le_bulkDepth_run {later : List Action} (h : ¬Closes later) (b : Buffer) :
    b.bulkDepth ≤ (b.run later).bulkDepth := by
  induction later using Action.induct generalizing b with
  | nil => exact Nat.le_refl _
  | edit a rest hbegin hend ih =>
    rw [run_cons, ← (bulk_act hbegin hend b).1]
    exact ih (fun hrest => h (hrest.cons_edit hbegin hend)) (b.act a)
  | surplus rest ih => exact absurd ⟨[], rest, rfl, .nil⟩ h
  | closed inner rest hinner ih =>
    have hrest := ih (fun hrest => h (hrest.cons_bulk hinner)) (((b.act .beginBulk).run inner).act .endBulk)
    simpa [hinner.bulkDepth_run] using hrest
  | unclosed rest hrest ih => exact Nat.le_trans (Nat.le_succ _) (ih hrest (b.act .beginBulk))

theorem IsOpen.append {later : List Action} (h : IsOpen later) (before : List Action) : IsOpen (before ++ later) := by
  obtain ⟨front, back, rfl, hback⟩ := h
  exact ⟨before ++ front, back, by simp, hback⟩

theorem bulkDepth_run_eq_zero {history : List Action} (h : ¬IsOpen history) (hb : b.bulkDepth = 0) :
    (b.run history).bulkDepth = 0 := by
  induction history using Action.induct generalizing b with
  | nil => exact hb
  | edit a rest hbegin hend ih =>
    exact ih (fun hrest => h (hrest.append [a])) ((bulk_act hbegin hend b).1.trans hb)
  | surplus rest ih => exact ih (fun hrest => h (hrest.append [.endBulk])) (by simp [hb])
  | closed inner rest hinner ih =>
    have hrest : ¬IsOpen rest := by
      intro hrest
      have hwhole := hrest.append (.beginBulk :: (inner ++ [.endBulk]))
      rw [List.cons_append, List.append_assoc, List.singleton_append] at hwhole
      exact h hwhole
    rw [run_cons, run_append, run_cons]
    exact ih hrest (by simp [hinner.bulkDepth_run, hb])
  | unclosed rest hrest ih => exact absurd ⟨[], rest, rfl, hrest⟩ h

theorem bulkDepth_run_pos_iff {history : List Action} (hb : b.bulkDepth = 0) :
    0 < (b.run history).bulkDepth ↔ IsOpen history := by
  constructor
  · intro hpos
    by_cases h : IsOpen history
    · exact h
    · have := bulkDepth_run_eq_zero h hb
      omega
  · rintro ⟨before, later, rfl, hlater⟩
    rw [run_append, run_cons]
    have hle := le_bulkDepth_run hlater ((b.run before).act .beginBulk)
    rw [bulkDepth_beginBulk] at hle
    omega

instance (history : List Action) : Decidable (IsOpen history) :=
  decidable_of_iff _ (bulkDepth_run_pos_iff (b := {}) rfl)

/-- How many bulk updates begin in `later` while none is open, behind what came before. -/
def outermost (before : List Action) : List Action → Nat
  | [] => 0
  | a :: later => (if a = .beginBulk ∧ ¬IsOpen before then 1 else 0) + outermost (before ++ [a]) later

theorem bulkUpdates_act (hb : b.bulkDepth = 0) (before : List Action) (a : Action) :
    ((b.run before).act a).bulkUpdates =
      (b.run before).bulkUpdates + if a = .beginBulk ∧ ¬IsOpen before then 1 else 0 := by
  have hopen : 0 < (b.run before).bulkDepth ↔ IsOpen before := bulkDepth_run_pos_iff hb
  by_cases hbegin : a = .beginBulk
  · subst hbegin
    by_cases hdepth : (b.run before).bulkDepth = 0
    · have hclosed : ¬IsOpen before := fun h => by
        have := hopen.mpr h
        omega
      simp [act, beginBulk, hdepth, hclosed]
    · simp [act, beginBulk, hdepth, hopen.mp (Nat.pos_of_ne_zero hdepth)]
  · by_cases hend : a = .endBulk
    · subst hend
      rfl
    · simp [bulk_act hbegin hend, hbegin]

theorem bulkUpdates_run (hb : b.bulkDepth = 0) (before later : List Action) :
    (b.run (before ++ later)).bulkUpdates = (b.run before).bulkUpdates + outermost before later := by
  induction later generalizing before with
  | nil => simp [outermost]
  | cons a later ih =>
    have hnext := ih (before ++ [a])
    rw [List.append_assoc, List.singleton_append] at hnext
    rw [hnext, run_append, run_cons, run_nil, bulkUpdates_act hb, outermost, Nat.add_assoc]

/-- Whatever is done to a new document, its stamp moves on by one with each edit that takes effect and with nothing
else, and a range that does not lie in it changes nothing.  So at moments with the same stamp it has the same
content.  It is in a bulk update exactly while some begin has no end, and the begins at which this was not so
are counted. -/
theorem content_of_stamp_eq (text : String) (history : List Action) :
    let b := (ofText text).run history
    (∀ a, (b.act a).stamp = b.stamp + if b.mutates a then 1 else 0) ∧
    (∀ start stop text e, (b.replaceRange start stop text = .error e ↔
        (stop < start ∨ b.size < stop) ∧ e = ⟨start, stop, b.size⟩) ∧
      (b.replaceRange start stop text = .error e → b.act (.replaceRange start stop text) = b)) ∧
    (∀ later, (b.run later).stamp = b.stamp → (b.run later).units = b.units) ∧
    (b.inBulk = true ↔ IsOpen history) ∧ b.bulkUpdates = outermost [] history := by
  intro b
  refine ⟨stamp_act b, ?_, fun later => (advances_run b later).units_eq, ?_, ?_⟩
  · intro start stop text e
    refine ⟨replaceRange_eq_error_iff, fun h => ?_⟩
    rw [act, h]
  · rw [inBulk, decide_eq_true_iff]
    exact bulkDepth_run_pos_iff rfl
  · exact (bulkUpdates_run (b := ofText text) rfl [] history).trans (Nat.zero_add _)

/-- A surplus end, a bulk update with another one in it, and one that stays open while a range is refused. -/
theorem content_of_stamp_eq_bulk :
    let history : List Action := [.endBulk, .beginBulk, .beginBulk, .setText "c", .endBulk, .endBulk, .beginBulk]
    let b := (ofText "ab").run history
    (b.run [.replaceRange 2 1 "x", .beginBulk]).stamp = b.stamp ∧
    (b.run [.replaceRange 2 1 "x", .beginBulk]).units = b.units ∧
    b.inBulk = true ∧ IsOpen history ∧ outermost [] history = 2 := by
  intro history b
  obtain ⟨-, -, hcontent, hopen, hcount⟩ := content_of_stamp_eq "ab" history
  have hstamp : (b.run [.replaceRange 2 1 "x", .beginBulk]).stamp = b.stamp := by decide +kernel
  have hbulk : b.inBulk = true := by decide +kernel
  exact ⟨hstamp, hcontent _ hstamp, hbulk, hopen.mp hbulk, hcount.symm.trans (by decide +kernel)⟩

end Restyle.Buffer
