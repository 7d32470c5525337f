import Restyle.Format.Desk
import Restyle.Proofs.Format.Edit

/-! # What the desk leaves alone

Putting a document in place changes that document only; beginning, cancelling and closing requests
changes no document at all.
-/
namespace Restyle.Desk

theorem document_setDocument (d : Desk) (name : String) (b : Buffer) (other : String) :
    (d.setDocument name b).document other = if other = name then b else d.document other := by
  unfold document setDocument
  by_cases h : other = name
  · simp [h]
  · have hn : ¬name = other := fun hn => h hn.symm
    rw [if_neg h, List.find?_cons_of_neg (by simp [hn]), List.find?_filter]
    refine congrArg (fun o : Option (String × Buffer) => (o.map (·.2)).getD (Buffer.ofText "")) ?_
    refine congrArg (fun p => d.documents.find? p) (funext fun entry => ?_)
    by_cases he : entry.1 = other
    · simp [he, h]
    · simp [he]

theorem source_start (d : Desk) (name : String) (t : Token) :
    (d.start name t).1.source = Utf8.encode (d.document name).text := rfl

@[simp] theorem document_start (d : Desk) (name : String) (t : Token) (other : String) :
    (d.start name t).2.document other = d.document other := by
  have h := document_setDocument d name (d.document name) other
  by_cases he : other = name
  · rw [if_pos he, ← he] at h
    rw [he] at h ⊢
    exact h
  · rw [if_neg he] at h
    exact h

@[simp] theorem document_cancel (d : Desk) (t : Token) (name : String) :
    (d.cancel t).document name = d.document name := rfl

/-- Cancelling some tokens changes the cancelled tokens only. -/
theorem foldl_cancel (ts : List Token) (d : Desk) :
    ∃ cancelled, ts.foldl (fun d t => if d.isCancelled t then d else d.cancel t) d = { d with cancelled } := by
  induction ts generalizing d with
  | nil => exact ⟨d.cancelled, rfl⟩
  | cons t ts ih =>
    rw [List.foldl_cons]
    split
    · exact ih d
    · exact ih (d.cancel t)

theorem mutated_eq (d : Desk) (inUse : Option String) : ∃ cancelled, d.mutated inUse = { d with cancelled } :=
  foldl_cancel _ d

@[simp] theorem document_mutated (d : Desk) (inUse : Option String) (name : String) :
    (d.mutated inUse).document name = d.document name := by
  obtain ⟨cancelled, h⟩ := mutated_eq d inUse
  rw [h]
  rfl

@[simp] theorem nextId_mutated (d : Desk) (inUse : Option String) : (d.mutated inUse).nextId = d.nextId := by
  obtain ⟨cancelled, h⟩ := mutated_eq d inUse
  rw [h]

theorem isCancelled_cancel {d : Desk} {t : Token} (h : d.isCancelled t = true) (other : Token) :
    (d.cancel other).isCancelled t = true :=
  List.contains_iff_mem.mpr (List.mem_cons_of_mem _ (List.contains_iff_mem.mp h))

/-- A token that is cancelled stays so. -/
theorem isCancelled_step {d : Desk} {t : Token} (h : d.isCancelled t = true) (s : DeskStep) :
    (d.step s).isCancelled t = true := by
  have hfold (ts : List Token) (d : Desk) (hd : d.isCancelled t = true) :
      (ts.foldl (fun d t => if d.isCancelled t then d else d.cancel t) d).isCancelled t = true := by
    induction ts generalizing d with
    | nil => exact hd
    | cons other ts ih =>
      rw [List.foldl_cons]
      split
      · exact ih d hd
      · exact ih _ (isCancelled_cancel hd other)
  cases s with
  | setText document text => exact h
  | mutated inUse => exact hfold _ d h
  | cancel other => exact isCancelled_cancel h other
  | look => exact h

@[simp] theorem document_unregister (d : Desk) (id : Nat) (name : String) :
    (d.unregister id).document name = d.document name := rfl

/-- A request that is concluded changes no document, or it applies its edit to its own document while
its token is not cancelled. -/
theorem conclude_cases (d : Desk) (t : Ticket) (result : Except Failure Prepared) :
    ((∀ name, (d.conclude t result).2.document name = d.document name) ∧
      ∀ e, result = .ok (.edit e) → (d.conclude t result).1 = .ok .cancelled) ∨
    ∃ e, result = .ok (.edit e) ∧ d.isCancelled t.token = false ∧
      (d.conclude t result).1 = (e.apply (d.document t.document)).1 ∧
      ∀ name, (d.conclude t result).2.document name =
        if name = t.document then (e.apply (d.document t.document)).2 else d.document name := by
  rcases result with failure | ⟨e⟩ | outcome
  · exact Or.inl ⟨fun _ => rfl, fun e h => by cases h⟩
  · by_cases hc : d.isCancelled t.token = true
    · have hland : d.conclude t (.ok (.edit e)) = (.ok .cancelled, d.unregister t.id) := by
        rw [conclude, land, if_pos hc]
      rw [hland]
      exact Or.inl ⟨document_unregister d t.id, fun _ _ => rfl⟩
    · have hland : d.conclude t (.ok (.edit e)) = ((e.apply (d.document t.document)).1,
          (d.setDocument t.document (e.apply (d.document t.document)).2).unregister t.id) := by
        rw [conclude, land, if_neg hc]
      rw [hland]
      exact Or.inr ⟨e, rfl, Bool.eq_false_iff.mpr hc, rfl, fun name => document_setDocument d t.document _ name⟩
  · exact Or.inl ⟨fun _ => rfl, fun e h => by cases h⟩

@[simp] theorem nextId_conclude (d : Desk) (t : Ticket) (result : Except Failure Prepared) :
    (d.conclude t result).2.nextId = d.nextId := by
  rcases result with failure | ⟨e⟩ | outcome
  · rfl
  · by_cases hc : d.isCancelled t.token = true
    · rw [conclude, land, if_pos hc]
      rfl
    · rw [conclude, land, if_neg hc]
      rfl
  · rfl

theorem advances_conclude (d : Desk) (t : Ticket) (result : Except Failure Prepared) (name : String) :
    (d.document name).Advances ((d.conclude t result).2.document name) := by
  rcases conclude_cases d t result with ⟨hdoc, -⟩ | ⟨e, -, -, -, hdoc⟩
  · rw [hdoc]
    exact Buffer.Advances.refl _
  · rw [hdoc]
    split
    · rename_i h
      rw [h]
      exact PreparedEdit.advances_apply e _
    · exact Buffer.Advances.refl _

/-- A request that ends as applied met its document with the stamp of its snapshot, and moved the stamp
on. -/
theorem stamp_lt_of_conclude {d : Desk} {t : Ticket} {result : Except Failure Prepared} {count : Nat}
    (hr : PreparedFor t.source t.stamp result) (h : (d.conclude t result).1 = .ok (.applied count)) :
    (d.document t.document).stamp = t.stamp ∧
      t.stamp < ((d.conclude t result).2.document t.document).stamp := by
  rcases conclude_cases d t result with ⟨-, hcancel⟩ | ⟨e, he, -, hone, hdoc⟩
  · rcases result with failure | ⟨e⟩ | outcome
    · cases h
    · rw [hcancel e rfl] at h
      cases h
    · obtain ⟨reason, rfl⟩ := hr
      cases h
  · rw [he] at hr
    rw [hone] at h
    obtain ⟨hmet, hlt⟩ := PreparedEdit.stamp_lt_of_applied h
    rw [hdoc, if_pos rfl]
    exact ⟨hmet.trans hr.2, hr.2 ▸ hmet ▸ hlt⟩

end Restyle.Desk
