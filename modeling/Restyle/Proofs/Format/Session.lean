import Mathlib.Data.List.Nodup
import Restyle.Proofs.Format.Desk

/-! # Requests in any order

A session is a desk with the requests that were begun on it.  It moves on by single steps of the
context that owns the documents, in any order: requests begin, documents are edited, requests are
cancelled, the work of a request comes back, and requests are concluded.
-/
namespace Restyle

inductive Phase where
  | working
  | prepared (result : Except Failure Prepared)
  | ended (outcome : Except Failure Outcome)

structure Request where
  ticket : Ticket
  phase : Phase

structure Session where
  desk : Desk
  requests : List Request := []

inductive Move where
  | start (document : String) (token : Token)
  | setText (document text : String)
  | replaceRange (document : String) (start stop : Nat) (text : String)
  | mutated (inUse : Option String)
  | cancel (token : Token)
  /-- The work of a request on a file comes back, done by an engine in any state. -/
  | complete (id : Nat) (file : String) (engine : Engine)
  | lose (id : Nat) (cause : Failure)
  | conclude (id : Nat)

namespace Request

def answer (r : Request) (result : Ticket → Except Failure Prepared) : Request :=
  match r.phase with
  | .working => { r with phase := .prepared (result r.ticket) }
  | _ => r

def IsApplied (r : Request) : Prop := ∃ count, r.phase = .ended (.ok (.applied count))

@[simp] theorem ticket_answer (r : Request) (result : Ticket → Except Failure Prepared) :
    (r.answer result).ticket = r.ticket := by
  unfold answer
  split <;> rfl

end Request

namespace Session

def update (s : Session) (id : Nat) (f : Request → Request) : Session :=
  { s with requests := s.requests.map fun r => if r.ticket.id = id then f r else r }

def step (s : Session) : Move → Session
  | .start name token =>
    let (ticket, desk) := s.desk.start name token
    ⟨desk, s.requests ++ [⟨ticket, .working⟩]⟩
  | .setText name text => { s with desk := s.desk.step (.setText name text) }
  | .replaceRange name start stop text =>
    match (s.desk.document name).replaceRange start stop text with
    | .ok b => { s with desk := s.desk.setDocument name b }
    | .error _ => s
  | .mutated inUse => { s with desk := s.desk.step (.mutated inUse) }
  | .cancel token => { s with desk := s.desk.step (.cancel token) }
  | .complete id file engine =>
    s.update id (·.answer fun t => ((Engine.prepare file t.source t.stamp t.token).run engine).1)
  | .lose id cause => s.update id (·.answer fun _ => .error cause)
  | .conclude id =>
    match s.requests.find? (·.ticket.id = id) with
    | some ⟨ticket, .prepared result⟩ =>
      let (outcome, desk) := s.desk.conclude ticket result
      { s.update id fun r => { r with phase := .ended outcome } with desk }
    | _ => s

def run (s : Session) (moves : List Move) : Session := moves.foldl step s

@[simp] theorem run_nil (s : Session) : s.run [] = s := rfl

@[simp] theorem run_cons (s : Session) (m : Move) (moves : List Move) :
    s.run (m :: moves) = (s.step m).run moves := rfl

/-- The session that steps lead to from a desk on which no request was begun. -/
def reached (d : Desk) (moves : List Move) : Session := run { desk := d } moves

/-- A request is as it was, or it is the one that was changed. -/
theorem mem_update {s : Session} {id : Nat} {f : Request → Request} {r : Request} (h : r ∈ (s.update id f).requests) :
    r ∈ s.requests ∨ ∃ old ∈ s.requests, old.ticket.id = id ∧ r = f old := by
  obtain ⟨old, hold, rfl⟩ := List.mem_map.mp h
  split
  · rename_i hid
    exact Or.inr ⟨old, hold, hid, rfl⟩
  · exact Or.inl hold

theorem map_id_update (s : Session) (id : Nat) {f : Request → Request} (hf : ∀ r, (f r).ticket = r.ticket) :
    (s.update id f).requests.map (·.ticket.id) = s.requests.map (·.ticket.id) := by
  simp only [update, List.map_map]
  apply List.map_congr_left
  intro r _
  simp only [Function.comp_apply]
  split
  · rw [hf]
  · rfl

theorem run_append (s : Session) (before after : List Move) : s.run (before ++ after) = (s.run before).run after :=
  List.foldl_append

/-! ### Documents -/

theorem document_step (s : Session) (m : Move) (name : String) :
    ((s.step m).desk.document name = s.desk.document name) ∨
    (∃ text, m = .setText name text) ∨ (∃ start stop text, m = .replaceRange name start stop text) ∨
    ∃ r ∈ s.requests, ∃ e, m = .conclude r.ticket.id ∧ r.ticket.document = name ∧ r.phase = .prepared (.ok (.edit e)) ∧
      s.desk.isCancelled r.ticket.token = false ∧
      (s.step m).desk.document name = (e.apply (s.desk.document name)).2 := by
  cases m with
  | start other token => exact Or.inl (Desk.document_start _ _ _ _)
  | setText other text =>
    by_cases h : name = other
    · exact Or.inr (Or.inl ⟨text, by rw [h]⟩)
    · left
      change (s.desk.setDocument other _).document name = _
      rw [Desk.document_setDocument, if_neg h]
  | replaceRange other start stop text =>
    by_cases h : name = other
    · exact Or.inr (Or.inr (Or.inl ⟨start, stop, text, by rw [h]⟩))
    · left
      simp only [step]
      split
      · rw [Desk.document_setDocument, if_neg h]
      · rfl
  | mutated inUse => exact Or.inl (Desk.document_mutated _ _ _)
  | cancel token => exact Or.inl (Desk.document_cancel _ _ _)
  | complete id file engine => exact Or.inl rfl
  | lose id cause => exact Or.inl rfl
  | conclude id =>
    simp only [step]
    split
    · rename_i ticket result hfind
      have hid : ticket.id = id := by simpa using List.find?_some hfind
      rcases s.desk.conclude_cases ticket result with ⟨hdoc, -⟩ | ⟨e, rfl, hcancel, -, hdoc⟩
      · exact Or.inl (hdoc name)
      · by_cases hname : name = ticket.document
        · refine Or.inr (Or.inr (Or.inr ⟨_, List.mem_of_find?_eq_some hfind, e, ?_⟩))
          refine ⟨by rw [hid], hname.symm, rfl, hcancel, ?_⟩
          rw [hname]
          exact (hdoc _).trans (if_pos rfl)
        · exact Or.inl ((hdoc name).trans (if_neg hname))
    · exact Or.inl rfl

theorem advances_step (s : Session) (m : Move) (name : String) :
    (s.desk.document name).Advances ((s.step m).desk.document name) := by
  rcases document_step s m name with h | ⟨text, rfl⟩ | ⟨start, stop, text, rfl⟩ | ⟨r, -, e, -, -, -, -, h⟩
  · rw [h]
    exact Buffer.Advances.refl _
  · change Buffer.Advances _ ((s.desk.setDocument name _).document name)
    rw [Desk.document_setDocument, if_pos rfl]
    exact Buffer.advances_setText _ text
  · simp only [step]
    split
    · rename_i b hb
      rw [Desk.document_setDocument, if_pos rfl]
      exact Or.inr (Nat.lt_of_lt_of_eq (Nat.lt_succ_self _) (Buffer.stamp_replaceRange hb).symm)
    · exact Buffer.Advances.refl _
  · rw [h]
    exact PreparedEdit.advances_apply e _

theorem advances_run (s : Session) (moves : List Move) (name : String) :
    (s.desk.document name).Advances ((s.run moves).desk.document name) := by
  induction moves generalizing s with
  | nil => exact Buffer.Advances.refl _
  | cons m moves ih =>
    have hfirst := advances_step s m name
    have hrest := ih (s.step m)
    rw [run_cons]
    exact hfirst.trans hrest

/-! ### The requests of a run -/

/-- A request is as old as the step before, or it begins now. -/
theorem exists_of_mem_step {s : Session} {m : Move} {r : Request} (h : r ∈ (s.step m).requests) :
    (∃ r' ∈ s.requests, r'.ticket = r.ticket) ∨
      (m = .start r.ticket.document r.ticket.token ∧ r.ticket = (s.desk.start r.ticket.document r.ticket.token).1) := by
  have hupdate {id : Nat} {f : Request → Request} (hf : ∀ r, (f r).ticket = r.ticket)
      (h : r ∈ (s.update id f).requests) : ∃ r' ∈ s.requests, r'.ticket = r.ticket := by
    rcases mem_update h with h | ⟨old, hold, -, rfl⟩
    · exact ⟨r, h, rfl⟩
    · exact ⟨old, hold, (hf old).symm⟩
  cases m with
  | start name token =>
    rcases List.mem_append.mp h with h | h
    · exact Or.inl ⟨r, h, rfl⟩
    · rw [List.mem_singleton.mp h]
      exact Or.inr ⟨rfl, rfl⟩
  | replaceRange name start stop text =>
    simp only [step] at h
    split at h <;> exact Or.inl ⟨r, h, rfl⟩
  | complete id file engine => exact Or.inl (hupdate (fun r => r.ticket_answer _) h)
  | lose id cause => exact Or.inl (hupdate (fun r => r.ticket_answer _) h)
  | conclude id =>
    simp only [step] at h
    split at h
    · exact Or.inl (hupdate (f := fun r => { r with phase := .ended _ }) (fun _ => rfl) h)
    · exact Or.inl ⟨r, h, rfl⟩
  | setText name text => exact Or.inl ⟨r, h, rfl⟩
  | mutated inUse => exact Or.inl ⟨r, h, rfl⟩
  | cancel token => exact Or.inl ⟨r, h, rfl⟩

/-- Every request of a run was there at its start or began on the way. -/
theorem exists_of_mem_run {s : Session} {moves : List Move} {r : Request} (h : r ∈ (s.run moves).requests) :
    (∃ r' ∈ s.requests, r'.ticket = r.ticket) ∨
      ∃ before after, moves = before ++ .start r.ticket.document r.ticket.token :: after ∧
        r.ticket = ((s.run before).desk.start r.ticket.document r.ticket.token).1 := by
  induction moves generalizing s with
  | nil => exact Or.inl ⟨r, h, rfl⟩
  | cons m moves ih =>
    rw [run_cons] at h
    rcases ih h with ⟨r', hr', ht⟩ | ⟨before, after, rfl, ht⟩
    · rcases exists_of_mem_step hr' with ⟨r₀, hr₀, ht₀⟩ | ⟨hm, ht₀⟩
      · exact Or.inl ⟨r₀, hr₀, ht₀.trans ht⟩
      · rw [ht] at hm ht₀
        exact Or.inr ⟨[], moves, by rw [hm]; rfl, ht₀⟩
    · exact Or.inr ⟨m :: before, after, rfl, ht⟩

/-- A document that still has the stamp of the snapshot of a request still has the content that it had
when the request began. -/
theorem units_eq_of_stamp_eq {s : Session} {before after : List Move} {t : Ticket}
    (ht : t = ((s.run before).desk.start t.document t.token).1)
    (hs : ((s.run (before ++ after)).desk.document t.document).stamp = t.stamp) :
    ((s.run (before ++ after)).desk.document t.document).units = ((s.run before).desk.document t.document).units := by
  have hstamp : t.stamp = ((s.run before).desk.document t.document).stamp := congrArg Ticket.stamp ht
  rw [run_append] at hs ⊢
  exact (advances_run (s.run before) after t.document).units_eq (hs.trans hstamp)

/-! ### Soundness -/

/-- What holds of every session: results belong to their snapshots, the stamp of a document is behind
the snapshot of each request that was applied to it, so that no two of these are for one snapshot, and
no two requests have one id. -/
structure Sound (s : Session) : Prop where
  prepared : ∀ r ∈ s.requests, ∀ result, r.phase = .prepared result →
    PreparedFor r.ticket.source r.ticket.stamp result
  applied : ∀ r ∈ s.requests, r.IsApplied → r.ticket.stamp < (s.desk.document r.ticket.document).stamp
  unique : ∀ r ∈ s.requests, ∀ r' ∈ s.requests, r.IsApplied → r'.IsApplied →
    r.ticket.document = r'.ticket.document → r.ticket.stamp = r'.ticket.stamp → r.ticket.id = r'.ticket.id
  id_lt : ∀ r ∈ s.requests, r.ticket.id < s.desk.nextId
  nodup : (s.requests.map (·.ticket.id)).Nodup

theorem sound_of_requests_eq_nil {s : Session} (h : s.requests = []) : s.Sound := by
  constructor <;> simp [h]

/-- A document does not have the stamp of a snapshot any more that was applied to it. -/
theorem Sound.stamp_ne {s : Session} (h : s.Sound) {r : Request} (hr : r ∈ s.requests) (ha : r.IsApplied) :
    (s.desk.document r.ticket.document).stamp ≠ r.ticket.stamp :=
  Nat.ne_of_gt (h.applied r hr ha)

/-- Soundness only needs the documents to advance and the ids that are given out to stay so. -/
theorem Sound.of_advances {s : Session} (h : s.Sound) {desk : Desk}
    (hdoc : ∀ name, (s.desk.document name).Advances (desk.document name)) (hid : s.desk.nextId ≤ desk.nextId) :
    Sound { s with desk } where
  prepared := h.prepared
  applied r hr ha := Nat.lt_of_lt_of_le (h.applied r hr ha) (hdoc _).stamp_le
  unique := h.unique
  id_lt r hr := Nat.lt_of_lt_of_le (h.id_lt r hr) hid
  nodup := h.nodup

theorem Sound.start {s : Session} (h : s.Sound) (name : String) (token : Token) : (s.step (.start name token)).Sound := by
  have hmem {r : Request} (hr : r ∈ (s.step (.start name token)).requests) :
      r ∈ s.requests ∨ r = ⟨(s.desk.start name token).1, .working⟩ := by
    rcases List.mem_append.mp hr with hr | hr
    · exact Or.inl hr
    · exact Or.inr (List.mem_singleton.mp hr)
  have hold {r : Request} (hr : r ∈ (s.step (.start name token)).requests) (ha : r.IsApplied) : r ∈ s.requests := by
    rcases hmem hr with hr | rfl
    · exact hr
    · obtain ⟨count, hc⟩ := ha
      cases hc
  constructor
  · intro r hr result hp
    rcases hmem hr with hr | rfl
    · exact h.prepared r hr result hp
    · cases hp
  · intro r hr ha
    have hlt := h.applied r (hold hr ha) ha
    rwa [← Desk.document_start s.desk name token] at hlt
  · intro r hr r' hr' ha ha'
    exact h.unique r (hold hr ha) r' (hold hr' ha') ha ha'
  · intro r hr
    rcases hmem hr with hr | rfl
    · exact Nat.lt_succ_of_lt (h.id_lt r hr)
    · exact Nat.lt_succ_self _
  · change ((s.requests ++ [_]).map _).Nodup
    rw [List.map_append, List.map_singleton, List.nodup_append]
    refine ⟨h.nodup, List.nodup_singleton _, ?_⟩
    intro id hid other hother
    obtain ⟨r, hr, rfl⟩ := List.mem_map.mp hid
    rw [List.mem_singleton.mp hother]
    exact Nat.ne_of_lt (h.id_lt r hr)

/-- One request may take a result for its snapshot, or end as applied to a document that had the stamp
of its snapshot and has it no more. -/
theorem Sound.update {s : Session} (h : s.Sound) {id : Nat} {f : Request → Request} {desk : Desk}
    (hdoc : ∀ name, (s.desk.document name).Advances (desk.document name)) (hid : s.desk.nextId ≤ desk.nextId)
    (hf : ∀ r, (f r).ticket = r.ticket)
    (hp : ∀ r ∈ s.requests, r.ticket.id = id → ∀ result, (f r).phase = .prepared result →
      PreparedFor r.ticket.source r.ticket.stamp result)
    (ha : ∀ r ∈ s.requests, r.ticket.id = id → (f r).IsApplied → r.IsApplied ∨
      ((s.desk.document r.ticket.document).stamp = r.ticket.stamp ∧
        r.ticket.stamp < (desk.document r.ticket.document).stamp)) :
    Sound { s.update id f with desk } := by
  have hmem {r : Request} (hr : r ∈ (s.update id f).requests) : ∃ old ∈ s.requests, old.ticket = r.ticket ∧
      (∀ result, r.phase = .prepared result → PreparedFor r.ticket.source r.ticket.stamp result) ∧
      (r.IsApplied → old.IsApplied ∨ (r.ticket.id = id ∧
        (s.desk.document r.ticket.document).stamp = r.ticket.stamp ∧
        r.ticket.stamp < (desk.document r.ticket.document).stamp)) := by
    rcases mem_update hr with hr | ⟨old, hold, hi, rfl⟩
    · exact ⟨r, hr, rfl, h.prepared r hr, Or.inl⟩
    · rw [hf]
      refine ⟨old, hold, rfl, hp old hold hi, ?_⟩
      intro happ
      exact (ha old hold hi happ).imp_right fun hnow => ⟨hi, hnow⟩
  constructor
  · intro r hr
    obtain ⟨-, -, -, hprepared, -⟩ := hmem hr
    exact hprepared
  · intro r hr happ
    obtain ⟨old, hold, ht, -, hcases⟩ := hmem hr
    rcases hcases happ with hbefore | ⟨-, -, hlt⟩
    · have hlt := h.applied old hold hbefore
      rw [ht] at hlt
      exact Nat.lt_of_lt_of_le hlt (hdoc _).stamp_le
    · exact hlt
  · intro r hr r' hr' happ happ' hd hs
    obtain ⟨old, hold, ht, -, hcases⟩ := hmem hr
    obtain ⟨old', hold', ht', -, hcases'⟩ := hmem hr'
    rcases hcases happ with hbefore | ⟨hi, hmet, -⟩ <;> rcases hcases' happ' with hbefore' | ⟨hi', hmet', -⟩
    · have hunique := h.unique old hold old' hold' hbefore hbefore'
      rw [ht, ht'] at hunique
      exact hunique hd hs
    -- The document is behind the snapshot of the one that was applied before, so the other missed it.
    · have hne := h.stamp_ne hold hbefore
      rw [ht, hd] at hne
      exact absurd (hmet'.trans hs.symm) hne
    · have hne := h.stamp_ne hold' hbefore'
      rw [ht', ← hd] at hne
      exact absurd (hmet.trans hs) hne
    · rw [hi, hi']
  · intro r hr
    obtain ⟨old, hold, ht, -⟩ := hmem hr
    rw [← ht]
    exact Nat.lt_of_lt_of_le (h.id_lt old hold) hid
  · have hids := map_id_update s id hf
    exact hids ▸ h.nodup

theorem Sound.answer {s : Session} (h : s.Sound) (id : Nat) {result : Ticket → Except Failure Prepared}
    (hr : ∀ t, PreparedFor t.source t.stamp (result t)) : (s.update id (·.answer result)).Sound := by
  apply h.update (fun _ => Buffer.Advances.refl _) (Nat.le_refl _) (fun r => r.ticket_answer result)
  · intro r hmem _ given hp
    unfold Request.answer at hp
    split at hp
    · cases hp
      exact hr r.ticket
    · exact h.prepared r hmem given hp
  · intro r _ _ ha
    left
    unfold Request.answer at ha
    split at ha
    · obtain ⟨count, hc⟩ := ha
      cases hc
    · exact ha

theorem Sound.conclude {s : Session} (h : s.Sound) (id : Nat) : (s.step (.conclude id)).Sound := by
  simp only [step]
  split
  · rename_i ticket result hfind
    have hid : ticket.id = id := by simpa using List.find?_some hfind
    have hmem := List.mem_of_find?_eq_some hfind
    refine h.update (fun name => s.desk.advances_conclude ticket result name)
      (Nat.le_of_eq (s.desk.nextId_conclude ticket result).symm) (fun _ => rfl) ?_ ?_
    · intro r _ _ given hp
      cases hp
    · intro r hr hi ha
      right
      obtain ⟨count, hc⟩ := ha
      have hsame : r = ⟨ticket, .prepared result⟩ := List.inj_on_of_nodup_map h.nodup hr hmem (hi.trans hid.symm)
      rw [hsame]
      exact Desk.stamp_lt_of_conclude (h.prepared _ hmem result rfl) (Phase.ended.inj hc)
  · exact h

theorem Sound.step {s : Session} (h : s.Sound) (m : Move) : (s.step m).Sound := by
  cases m with
  | start name token => exact h.start name token
  | setText name text => exact h.of_advances (advances_step s (.setText name text)) (Nat.le_refl _)
  | replaceRange name start stop text =>
    have hadv := advances_step s (.replaceRange name start stop text)
    simp only [Session.step] at hadv ⊢
    split at hadv
    · exact h.of_advances hadv (Nat.le_refl _)
    · exact h
  | mutated inUse =>
    exact h.of_advances (advances_step s (.mutated inUse)) (Nat.le_of_eq (Desk.nextId_mutated _ _).symm)
  | cancel token => exact h.of_advances (advances_step s (.cancel token)) (Nat.le_refl _)
  | complete id file engine => exact h.answer id fun t => Engine.prepare_preparedFor file t.source t.stamp t.token engine
  | lose id cause => exact h.answer id fun _ => trivial
  | conclude id => exact h.conclude id

theorem Sound.run {s : Session} (h : s.Sound) (moves : List Move) : (s.run moves).Sound := by
  induction moves generalizing s with
  | nil => exact h
  | cons m moves ih =>
    rw [run_cons]
    exact ih (h.step m)

theorem sound_reached (d : Desk) (moves : List Move) : (reached d moves).Sound :=
  Sound.run (sound_of_requests_eq_nil rfl) moves

/-- In every order of steps a document changes only by an edit of it, or where a request on it is
concluded that began on the same content and whose token is not cancelled; and of the requests that
began on a document at one stamp at most one ends as applied. -/
theorem reached_safe (d : Desk) (moves : List Move) :
    (∀ m name, ((reached d moves).step m).desk.document name ≠ (reached d moves).desk.document name →
      (∃ text, m = .setText name text) ∨ (∃ start stop text, m = .replaceRange name start stop text) ∨
      ∃ r ∈ (reached d moves).requests, ∃ before after, m = .conclude r.ticket.id ∧
        moves = before ++ .start name r.ticket.token :: after ∧
        r.ticket = ((reached d before).desk.start name r.ticket.token).1 ∧
        ((reached d moves).desk.document name).units = ((reached d before).desk.document name).units ∧
        Utf8.encode ((reached d moves).desk.document name).text = r.ticket.source ∧
        (reached d moves).desk.isCancelled r.ticket.token = false) ∧
    (∀ r ∈ (reached d moves).requests, ∀ r' ∈ (reached d moves).requests, r.IsApplied → r'.IsApplied →
      r.ticket.document = r'.ticket.document → r.ticket.stamp = r'.ticket.stamp → r = r') ∧
    ((reached d moves).requests.map (·.ticket.id)).Nodup := by
  have hsound := sound_reached d moves
  refine ⟨?_, ?_, hsound.nodup⟩
  · intro m name hne
    rcases document_step (reached d moves) m name with h | hset | hreplace | ⟨r, hr, e, hm, hname, hphase, hcancel, h⟩
    · exact absurd h hne
    · exact Or.inl hset
    · exact Or.inr (Or.inl hreplace)
    · subst hname
      obtain ⟨-, hstamp⟩ := hsound.prepared r hr _ hphase
      have hmet : ((reached d moves).desk.document r.ticket.document).stamp = r.ticket.stamp := by
        by_cases hs : ((reached d moves).desk.document r.ticket.document).stamp = e.stamp
        · exact hs.trans hstamp
        · rw [PreparedEdit.apply_of_stamp_ne hs] at h
          exact absurd h hne
      rcases exists_of_mem_run hr with ⟨old, hold, -⟩ | ⟨before, after, hmoves, ht⟩
      · cases hold
      have hunits : ((reached d moves).desk.document r.ticket.document).units =
          ((reached d before).desk.document r.ticket.document).units := by
        rw [hmoves] at hmet ⊢
        exact units_eq_of_stamp_eq ht hmet
      have hsource : r.ticket.source = Utf8.encode ((reached d before).desk.document r.ticket.document).text :=
        congrArg Ticket.source ht
      refine Or.inr (Or.inr ⟨r, hr, before, after, hm, hmoves, ht, hunits, ?_, hcancel⟩)
      rw [hsource, Buffer.text, hunits, Buffer.text]
  · intro r hr r' hr' ha ha' hd hs
    have hid := hsound.unique r hr r' hr' ha ha' hd hs
    exact List.inj_on_of_nodup_map hsound.nodup hr hr' hid

end Session
end Restyle
