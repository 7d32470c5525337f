import Restyle.Proofs.Format.Session

/-! # The registry of requests

The desk has an entry for each request that is under way.  Entries come and go in any order, and a
mutation cancels the requests among them whose documents have moved on.
-/
namespace Restyle

namespace Request

def isEnded (r : Request) : Bool :=
  match r.phase with
  | .ended _ => true
  | _ => false

def entry (r : Request) : InFlight := ⟨r.ticket.id, r.ticket.token, r.ticket.document, r.ticket.stamp⟩

theorem isEnded_answer (r : Request) (result : Ticket → Except Failure Prepared) :
    (r.answer result).isEnded = r.isEnded := by
  unfold answer
  split
  · rename_i h
    simp [isEnded, h]
  · rfl

theorem exists_prepared_answer {r : Request} {result : Ticket → Except Failure Prepared} (h : (r.answer result).isEnded = false) :
    ∃ prepared, (r.answer result).phase = .prepared prepared := by
  unfold answer at h ⊢
  cases hr : r.phase with
  | working => exact ⟨result r.ticket, by simp⟩
  | prepared prepared => exact ⟨prepared, by simp [hr]⟩
  | ended outcome => simp [isEnded, hr] at h

theorem entry_answer (r : Request) (result : Ticket → Except Failure Prepared) :
    (r.answer result).entry = r.entry := by
  simp [entry]

end Request

namespace Desk

def Knows (d : Desk) (name : String) : Prop := ∃ entry ∈ d.documents, entry.1 = name

theorem knows_setDocument (d : Desk) (name : String) (b : Buffer) : (d.setDocument name b).Knows name :=
  ⟨(name, b), List.mem_cons_self, rfl⟩

theorem Knows.setDocument {d : Desk} {other : String} (h : d.Knows other) (name : String) (b : Buffer) :
    (d.setDocument name b).Knows other := by
  by_cases hname : other = name
  · rw [hname]
    exact knows_setDocument d name b
  · obtain ⟨entry, hentry, rfl⟩ := h
    refine ⟨entry, List.mem_cons_of_mem _ ?_, rfl⟩
    simpa using ⟨hentry, hname⟩

theorem Knows.of_documents {d other : Desk} {name : String} (h : d.Knows name) (hd : other.documents = d.documents) :
    other.Knows name := by
  unfold Knows at h ⊢
  rw [hd]
  exact h

theorem isStale_iff {d : Desk} {r : InFlight} (h : d.Knows r.document) (inUse : Option String) :
    d.isStale inUse r = true ↔ inUse ≠ some r.document ∧ (d.document r.document).stamp ≠ r.stamp := by
  have hfound : (d.documents.find? (·.1 = r.document)).isSome = true := by simpa [Knows] using h
  obtain ⟨entry, hentry⟩ := Option.isSome_iff_exists.mp hfound
  by_cases hu : inUse = some r.document
  · simp [isStale, hu]
  · simp [isStale, document, hu, hentry]

/-- A token is cancelled by a mutation if it belongs to a request whose document has changed. -/
theorem isCancelled_mutated (d : Desk) (inUse : Option String) (t : Token) : (d.mutated inUse).isCancelled t = true ↔
    d.isCancelled t = true ∨ ∃ r ∈ d.inFlight, d.isStale inUse r = true ∧ r.token = t := by
  have hfold (ts : List Token) (d : Desk) :
      (ts.foldl (fun d t => if d.isCancelled t then d else d.cancel t) d).isCancelled t = true ↔
        d.isCancelled t = true ∨ t ∈ ts := by
    induction ts generalizing d with
    | nil => simp
    | cons other ts ih =>
      rw [List.foldl_cons, ih]
      split
      · rename_i hother
        constructor
        · exact Or.imp_right (List.mem_cons_of_mem other)
        · rintro (h | h)
          · exact Or.inl h
          · rcases List.mem_cons.mp h with rfl | h
            · exact Or.inl hother
            · exact Or.inr h
      · simp [isCancelled, cancel, or_assoc, or_comm, or_left_comm]
  rw [mutated, hfold]
  simp [and_assoc]

@[simp] theorem inFlight_mutated (d : Desk) (inUse : Option String) : (d.mutated inUse).inFlight = d.inFlight := by
  obtain ⟨cancelled, h⟩ := mutated_eq d inUse
  rw [h]

@[simp] theorem documents_mutated (d : Desk) (inUse : Option String) : (d.mutated inUse).documents = d.documents := by
  obtain ⟨cancelled, h⟩ := mutated_eq d inUse
  rw [h]

/-- A conclusion changes the documents by putting one in place, if at all; it removes the entry of the request and
cancels nothing. -/
theorem conclude_eq (d : Desk) (t : Ticket) (result : Except Failure Prepared) :
    (d.conclude t result).2 = d.unregister t.id ∨
      ∃ b, (d.conclude t result).2 = (d.setDocument t.document b).unregister t.id := by
  rcases result with failure | ⟨e⟩ | outcome
  · exact Or.inl rfl
  · by_cases hc : d.isCancelled t.token = true
    · rw [conclude, land, if_pos hc]
      exact Or.inl rfl
    · rw [conclude, land, if_neg hc]
      exact Or.inr ⟨_, rfl⟩
  · exact Or.inl rfl

theorem inFlight_conclude (d : Desk) (t : Ticket) (result : Except Failure Prepared) :
    (d.conclude t result).2.inFlight = d.inFlight.filter (·.id ≠ t.id) := by
  rcases d.conclude_eq t result with h | ⟨b, h⟩ <;> rw [h] <;> rfl

theorem isCancelled_conclude (d : Desk) (t : Ticket) (result : Except Failure Prepared) (token : Token) :
    (d.conclude t result).2.isCancelled token = d.isCancelled token := by
  rcases d.conclude_eq t result with h | ⟨b, h⟩ <;> rw [h] <;> rfl

theorem Knows.conclude {d : Desk} {name : String} (h : d.Knows name) (t : Ticket) (result : Except Failure Prepared) :
    (d.conclude t result).2.Knows name := by
  rcases d.conclude_eq t result with he | ⟨b, he⟩
  · rw [he]
    exact h
  · rw [he]
    exact h.setDocument t.document b

/-- A request whose token is cancelled does not end as applied. -/
theorem conclude_ne_applied {d : Desk} {t : Ticket} {result : Except Failure Prepared}
    (hr : PreparedFor t.source t.stamp result) (hc : d.isCancelled t.token = true) (count : Nat) :
    (d.conclude t result).1 ≠ .ok (.applied count) := by
  intro h
  rcases conclude_cases d t result with ⟨-, hcancelled⟩ | ⟨e, -, hlive, -⟩
  · rcases result with failure | ⟨e⟩ | outcome
    · cases h
    · rw [hcancelled e rfl] at h
      cases h
    · obtain ⟨reason, rfl⟩ := hr
      cases h
  · rw [hc] at hlive
    cases hlive

end Desk

namespace Session

def unfinished (s : Session) : List Request := s.requests.filter (!·.isEnded)

/-- The document of a request has another stamp than its snapshot, and it is not in use. -/
def IsStale (s : Session) (inUse : Option String) (r : Request) : Prop :=
  inUse ≠ some r.ticket.document ∧ (s.desk.document r.ticket.document).stamp ≠ r.ticket.stamp

theorem mem_unfinished {s : Session} {r : Request} : r ∈ s.unfinished ↔ r ∈ s.requests ∧ r.isEnded = false := by
  simp [unfinished]

/-! ### The entries of a session -/

/-- The registry has one entry for each unfinished request, and every request is on a document that was used. -/
structure Registered (s : Session) : Prop where
  entries : s.desk.inFlight = s.unfinished.map Request.entry
  knows : ∀ r ∈ s.requests, s.desk.Knows r.ticket.document

/-- Registered sessions need only their requests to stay unfinished or not, and the documents to be known. -/
theorem Registered.of_desk {s : Session} (h : s.Registered) {desk : Desk} (hf : desk.inFlight = s.desk.inFlight)
    (hk : ∀ name, s.desk.Knows name → desk.Knows name) : Registered { s with desk } where
  entries := hf.trans h.entries
  knows r hr := hk _ (h.knows r hr)

theorem Registered.start {s : Session} (h : s.Registered) (name : String) (token : Token) :
    (s.step (.start name token)).Registered := by
  constructor
  · change s.desk.inFlight ++ [_] = _
    simp [unfinished, step, Desk.start, h.entries, Request.isEnded, Request.entry]
  · intro r hr
    rcases List.mem_append.mp hr with hr | hr
    · exact (h.knows r hr).setDocument name _
    · rw [List.mem_singleton.mp hr]
      exact Desk.knows_setDocument s.desk name _

theorem Registered.answer {s : Session} (h : s.Registered) (id : Nat) (result : Ticket → Except Failure Prepared) :
    (s.update id (·.answer result)).Registered := by
  constructor
  · have hmap (rs : List Request) : ((rs.map fun r => if r.ticket.id = id then r.answer result else r).filter
        (!·.isEnded)).map Request.entry = (rs.filter (!·.isEnded)).map Request.entry := by
      induction rs with
      | nil => rfl
      | cons r rs ih =>
        by_cases hid : r.ticket.id = id <;> by_cases hended : r.isEnded = true <;>
          simp [hid, hended, ih, Request.isEnded_answer, Request.entry_answer]
    exact h.entries.trans (hmap s.requests).symm
  · intro r hr
    rcases mem_update hr with hr | ⟨old, hold, -, rfl⟩
    · exact h.knows r hr
    · rw [Request.ticket_answer]
      exact h.knows old hold

theorem Registered.conclude {s : Session} (h : s.Registered) (id : Nat) : (s.step (.conclude id)).Registered := by
  simp only [step]
  split
  · rename_i ticket result hfind
    have hid : ticket.id = id := by simpa using List.find?_some hfind
    constructor
    · have hmap (outcome : Except Failure Outcome) (rs : List Request) :
          ((rs.map fun r => if r.ticket.id = id then { r with phase := .ended outcome } else r).filter
            (!·.isEnded)).map Request.entry = ((rs.filter (!·.isEnded)).map Request.entry).filter (·.id ≠ id) := by
        induction rs with
        | nil => rfl
        | cons r rs ih =>
          by_cases hr : r.ticket.id = id <;> by_cases hended : r.isEnded = true <;>
            simp_all [Request.isEnded, Request.entry]
      refine (s.desk.inFlight_conclude ticket result).trans ?_
      rw [h.entries, hid]
      exact (hmap _ s.requests).symm
    · intro r hr
      rcases mem_update hr with hr | ⟨old, hold, -, rfl⟩
      · exact (h.knows r hr).conclude ticket result
      · exact (h.knows old hold).conclude ticket result
  · exact h

theorem Registered.step {s : Session} (h : s.Registered) (m : Move) : (s.step m).Registered := by
  cases m with
  | start name token => exact h.start name token
  | setText name text => exact h.of_desk rfl fun _ hk => hk.setDocument name _
  | replaceRange name start stop text =>
    simp only [Session.step]
    split
    · exact h.of_desk rfl fun _ hk => hk.setDocument name _
    · exact h
  | mutated inUse =>
    exact h.of_desk (Desk.inFlight_mutated _ _) fun _ hk => hk.of_documents (Desk.documents_mutated _ _)
  | cancel token => exact h.of_desk rfl fun _ hk => hk
  | complete id file engine => exact h.answer id _
  | lose id cause => exact h.answer id _
  | conclude id => exact h.conclude id

theorem Registered.run {s : Session} (h : s.Registered) (moves : List Move) : (s.run moves).Registered := by
  induction moves generalizing s with
  | nil => exact h
  | cons m moves ih => exact ih (h.step m)

theorem registered_start {d : Desk} (h : d.inFlight = []) : Registered { desk := d } := ⟨h, by simp⟩

/-! ### The beginning and the end of requests -/

def begun? : Move → Option (String × Token)
  | .start name token => some (name, token)
  | _ => none

theorem begun_step (s : Session) (m : Move) : (s.step m).requests.map (fun r => (r.ticket.document, r.ticket.token)) =
    s.requests.map (fun r => (r.ticket.document, r.ticket.token)) ++ (begun? m).toList := by
  have hupdate (id : Nat) {f : Request → Request} (hf : ∀ r, (f r).ticket = r.ticket) :
      (s.update id f).requests.map (fun r => (r.ticket.document, r.ticket.token)) =
        s.requests.map fun r => (r.ticket.document, r.ticket.token) := by
    simp only [update, List.map_map]
    apply List.map_congr_left
    intro r _
    by_cases hr : r.ticket.id = id <;> simp [hr, hf]
  cases m with
  | start name token => simp [step, begun?, Desk.start]
  | setText name text => simp [step, begun?]
  | replaceRange name start stop text =>
    simp only [step, begun?]
    split <;> simp
  | mutated inUse => simp [step, begun?]
  | cancel token => simp [step, begun?]
  | complete id file engine => simpa [step, begun?] using hupdate id fun r => r.ticket_answer _
  | lose id cause => simpa [step, begun?] using hupdate id fun r => r.ticket_answer _
  | conclude id =>
    simp only [step, begun?]
    split
    · simpa using hupdate id (f := fun r => { r with phase := .ended _ }) fun _ => rfl
    · simp

theorem begun_run (s : Session) (moves : List Move) :
    (s.run moves).requests.map (fun r => (r.ticket.document, r.ticket.token)) =
      s.requests.map (fun r => (r.ticket.document, r.ticket.token)) ++ moves.filterMap begun? := by
  induction moves generalizing s with
  | nil => simp
  | cons m moves ih =>
    rw [run_cons, ih, begun_step, List.append_assoc]
    cases h : begun? m <;> simp [h]

/-- The work of a request comes back, or it is lost. -/
def IsReturn (id : Nat) (m : Move) : Prop := (∃ file engine, m = .complete id file engine) ∨ ∃ cause, m = .lose id cause

theorem IsReturn.step_eq {id : Nat} {m : Move} (h : IsReturn id m) (s : Session) :
    ∃ result, s.step m = s.update id (·.answer result) := by
  rcases h with ⟨file, engine, rfl⟩ | ⟨cause, rfl⟩
  · exact ⟨_, rfl⟩
  · exact ⟨_, rfl⟩

theorem Sound.find?_eq {s : Session} (h : s.Sound) {r : Request} (hr : r ∈ s.requests) :
    s.requests.find? (·.ticket.id = r.ticket.id) = some r := by
  have hfound : (s.requests.find? (·.ticket.id = r.ticket.id)).isSome = true := by simpa using ⟨r, hr, rfl⟩
  obtain ⟨other, hother⟩ := Option.isSome_iff_exists.mp hfound
  have hid : other.ticket.id = r.ticket.id := by simpa using List.find?_some hother
  rw [hother, List.inj_on_of_nodup_map h.nodup (List.mem_of_find?_eq_some hother) hr hid]

/-- A request that comes back and is concluded leaves the registry, and no other one does. -/
theorem inFlight_end {s : Session} (hs : s.Sound) (hr : s.Registered) {id : Nat} {m : Move} (hm : IsReturn id m) :
    (s.run [m, .conclude id]).desk.inFlight = s.desk.inFlight.filter (·.id ≠ id) := by
  obtain ⟨result, hstep⟩ := hm.step_eq s
  have hsound := hs.step m
  have hregistered := hr.step m
  rw [hstep] at hsound hregistered
  rw [run_cons, run_cons, run_nil, hstep]
  simp only [step]
  split
  · rename_i ticket prepared hfind
    have hid : ticket.id = id := by simpa using List.find?_some hfind
    rw [← hid]
    exact Desk.inFlight_conclude _ ticket prepared
  · rename_i hnone
    -- Nothing with this id is prepared now, so no entry has it.
    refine (List.filter_eq_self.mpr fun entry hentry => ?_).symm
    rw [hregistered.entries] at hentry
    obtain ⟨r, hmem, rfl⟩ := List.mem_map.mp hentry
    obtain ⟨hmem, hended⟩ := mem_unfinished.mp hmem
    refine decide_eq_true ?_
    rintro rfl
    obtain ⟨prepared, hphase⟩ : ∃ prepared, r.phase = .prepared prepared := by
      obtain ⟨old, -, heq⟩ := List.mem_map.mp hmem
      split at heq
      · rw [← heq] at hended ⊢
        exact Request.exists_prepared_answer hended
      · rename_i hold
        exact absurd (congrArg (·.ticket.id) heq) hold
    apply hnone r.ticket prepared
    rw [← hphase]
    exact hsound.find?_eq hmem

/-- However the work of requests comes back, and in whatever order they are concluded, none of them stays in the
registry. -/
theorem inFlight_ends {s : Session} (hs : s.Sound) (hr : s.Registered) (ids : List Nat) (back : Nat → Move)
    (hb : ∀ id, IsReturn id (back id)) :
    (s.run (ids.flatMap fun id => [back id, .conclude id])).desk.inFlight = s.desk.inFlight.filter (·.id ∉ ids) := by
  induction ids generalizing s with
  | nil => simp
  | cons id ids ih =>
    rw [List.flatMap_cons, run_append, ih (hs.run _) (hr.run _), inFlight_end hs hr (hb id), List.filter_filter]
    apply List.filter_congr
    intro entry _
    simp [not_or, Bool.and_comm]

/-! ### Cancelled requests -/

theorem isCancelled_step {s : Session} {token : Token} (h : s.desk.isCancelled token = true) (m : Move) :
    (s.step m).desk.isCancelled token = true := by
  cases m with
  | start name t => exact h
  | setText name text => exact h
  | replaceRange name start stop text =>
    simp only [step]
    split <;> exact h
  | mutated inUse => exact Desk.isCancelled_step h (.mutated inUse)
  | cancel t => exact Desk.isCancelled_step h (.cancel t)
  | complete id file engine => exact h
  | lose id cause => exact h
  | conclude id =>
    simp only [step]
    split
    · exact (Desk.isCancelled_conclude _ _ _ _).trans h
    · exact h

/-- A token is cancelled, and no request of this id ended as applied before. -/
structure Doomed (s : Session) (id : Nat) (token : Token) : Prop where
  isCancelled : s.desk.isCancelled token = true
  id_lt : id < s.desk.nextId
  not_applied : ∀ r ∈ s.requests, r.ticket.id = id → r.ticket.token = token ∧ ¬r.IsApplied

theorem Doomed.update {s : Session} {id : Nat} {token : Token} (h : s.Doomed id token) {other : Nat} {f : Request → Request}
    {desk : Desk} (hc : desk.isCancelled token = true) (hid : s.desk.nextId ≤ desk.nextId)
    (hf : ∀ r, (f r).ticket = r.ticket)
    (ha : ∀ r ∈ s.requests, r.ticket.id = other → other = id → (f r).IsApplied → r.IsApplied) :
    Doomed { s.update other f with desk } id token := by
  refine ⟨hc, Nat.lt_of_lt_of_le h.id_lt hid, ?_⟩
  intro r hr hr'
  rcases mem_update hr with hr | ⟨old, hold, ho, rfl⟩
  · exact h.not_applied r hr hr'
  · rw [hf] at hr' ⊢
    obtain ⟨htoken, hnot⟩ := h.not_applied old hold hr'
    exact ⟨htoken, fun happlied => hnot (ha old hold ho (ho.symm.trans hr') happlied)⟩

theorem Doomed.step {s : Session} (hs : s.Sound) {id : Nat} {token : Token} (h : s.Doomed id token) (m : Move) :
    (s.step m).Doomed id token := by
  have hc := isCancelled_step h.isCancelled m
  have hanswer (other : Nat) (result : Ticket → Except Failure Prepared) :
      (s.update other (·.answer result)).Doomed id token := by
    refine h.update h.isCancelled (Nat.le_refl _) (fun r => r.ticket_answer result) ?_
    rintro r - - - ⟨count, hcount⟩
    unfold Request.answer at hcount
    split at hcount
    · cases hcount
    · exact ⟨count, hcount⟩
  cases m with
  | start name t =>
    refine ⟨hc, Nat.lt_succ_of_lt h.id_lt, ?_⟩
    intro r hr hr'
    rcases List.mem_append.mp hr with hr | hr
    · exact h.not_applied r hr hr'
    · rw [List.mem_singleton.mp hr] at hr'
      exact absurd hr' (Nat.ne_of_gt h.id_lt)
  | setText name text => exact ⟨hc, h.id_lt, h.not_applied⟩
  | replaceRange name start stop text =>
    simp only [Session.step] at hc ⊢
    split <;> exact ⟨h.isCancelled, h.id_lt, h.not_applied⟩
  | mutated inUse =>
    refine ⟨hc, ?_, h.not_applied⟩
    exact Nat.lt_of_lt_of_eq h.id_lt (Desk.nextId_mutated _ _).symm
  | cancel t => exact ⟨hc, h.id_lt, h.not_applied⟩
  | complete other file engine => exact hanswer other _
  | lose other cause => exact hanswer other _
  | conclude other =>
    simp only [Session.step] at hc ⊢
    split at hc
    · rename_i ticket result hfind
      have hmem := List.mem_of_find?_eq_some hfind
      have hticket : ticket.id = other := by simpa using List.find?_some hfind
      refine h.update hc (Nat.le_of_eq (s.desk.nextId_conclude ticket result).symm) (fun _ => rfl) ?_
      rintro r - - rfl ⟨count, hcount⟩
      obtain ⟨rfl, -⟩ := h.not_applied _ hmem hticket
      exact absurd (Phase.ended.inj hcount)
        (Desk.conclude_ne_applied (hs.prepared _ hmem result rfl) h.isCancelled count)
    · exact h

theorem Doomed.run {s : Session} (hs : s.Sound) {id : Nat} {token : Token} (h : s.Doomed id token) (moves : List Move) :
    (s.run moves).Doomed id token := by
  induction moves generalizing s with
  | nil => exact h
  | cons m moves ih => exact ih (hs.step m) (h.step hs m)

/-! ### All orders -/

/-- In every order of steps the registry has just the entries of the requests that began and have not ended, each
with an id of its own; however these come back, and in whatever order they are concluded, none of them stays.  A
mutation cancels the tokens of unfinished requests whose documents have another stamp than their snapshots, and no
other; none of these requests ends as applied. -/
theorem registry_reached (d : Desk) (moves : List Move) :
    let s := reached { d with inFlight := [] } moves
    s.requests.map (fun r => (r.ticket.document, r.ticket.token)) = moves.filterMap begun? ∧
    s.desk.inFlight = s.unfinished.map Request.entry ∧
    s.desk.inFlight.length = s.requests.countP (!·.isEnded) ∧
    (s.desk.inFlight.map (·.id)).Nodup ∧
    (∀ (ids : List Nat) (back : Nat → Move), (∀ r ∈ s.unfinished, r.ticket.id ∈ ids) → (∀ id, IsReturn id (back id)) →
      (s.run (ids.flatMap fun id => [back id, .conclude id])).desk.inFlight.length = 0) ∧
    ∀ inUse,
      (∀ token, (s.step (.mutated inUse)).desk.isCancelled token = true ↔
        s.desk.isCancelled token = true ∨ ∃ r ∈ s.unfinished, r.ticket.token = token ∧ s.IsStale inUse r) ∧
      ∀ r ∈ s.unfinished, s.IsStale inUse r → ∀ later, ∀ r' ∈ ((s.step (.mutated inUse)).run later).requests,
        r'.ticket.id = r.ticket.id → ¬r'.IsApplied := by
  intro s
  have hsound : s.Sound := sound_reached { d with inFlight := [] } moves
  have hregistered : s.Registered := (registered_start rfl).run moves
  have hcancelled (inUse : Option String) (token : Token) :
      (s.step (.mutated inUse)).desk.isCancelled token = true ↔
        s.desk.isCancelled token = true ∨ ∃ r ∈ s.unfinished, r.ticket.token = token ∧ s.IsStale inUse r := by
    refine (s.desk.isCancelled_mutated inUse token).trans (or_congr_right ?_)
    rw [hregistered.entries]
    have hstale : ∀ r ∈ s.unfinished, (s.desk.isStale inUse r.entry = true ↔ s.IsStale inUse r) := by
      intro r hr
      exact Desk.isStale_iff (r := r.entry) (hregistered.knows r (mem_unfinished.mp hr).1) inUse
    constructor
    · rintro ⟨entry, hentry, hs, ht⟩
      obtain ⟨r, hr, rfl⟩ := List.mem_map.mp hentry
      exact ⟨r, hr, ht, (hstale r hr).mp hs⟩
    · rintro ⟨r, hr, ht, hs⟩
      exact ⟨r.entry, List.mem_map_of_mem hr, (hstale r hr).mpr hs, ht⟩
  refine ⟨begun_run _ moves, hregistered.entries, ?_, ?_, ?_, ?_⟩
  · rw [hregistered.entries, List.length_map, unfinished, List.countP_eq_length_filter]
  · rw [hregistered.entries, List.map_map]
    exact hsound.nodup.sublist (List.filter_sublist.map _)
  · intro ids back hids hback
    rw [inFlight_ends hsound hregistered ids back hback, hregistered.entries, List.length_eq_zero_iff, List.filter_eq_nil_iff]
    intro entry hentry
    obtain ⟨r, hr, rfl⟩ := List.mem_map.mp hentry
    have hid : r.entry.id ∈ ids := hids r hr
    simpa using hid
  · intro inUse
    refine ⟨hcancelled inUse, ?_⟩
    intro r hr hstale later r' hr' hid
    obtain ⟨hmem, hended⟩ := mem_unfinished.mp hr
    have hdoomed : (s.step (.mutated inUse)).Doomed r.ticket.id r.ticket.token := by
      refine ⟨(hcancelled inUse _).mpr (Or.inr ⟨r, hr, rfl, hstale⟩), ?_, ?_⟩
      · exact Nat.lt_of_lt_of_eq (hsound.id_lt r hmem) (Desk.nextId_mutated _ _).symm
      · intro other hother hother'
        obtain rfl := List.inj_on_of_nodup_map hsound.nodup hother hmem hother'
        refine ⟨rfl, ?_⟩
        rintro ⟨count, hcount⟩
        simp [Request.isEnded, hcount] at hended
    exact ((hdoomed.run (hsound.step _) later).not_applied r' hr' hid).2

end Session
end Restyle
