import Restyle.Proofs.Markup.Event

/-! # Markup whose end is missing

A tag or an instruction that is not there up to its `>` is no markup at all, wherever the text stops;
where nothing of it is there the text just ends.
-/
namespace Restyle.Markup

/-- A text that stops in what precedes a seam, or goes on behind it. -/
theorem prefix_append_cases {α : Type} {q front back : List α} (h : q <+: front ++ back) :
    (q <+: front ∧ q ≠ front) ∨ ∃ more, q = front ++ more ∧ more <+: back := by
  obtain ⟨rest, hrest⟩ := h
  rcases List.append_eq_append_iff.mp hrest with ⟨missing, hfront, hback⟩ | ⟨more, hq, hback⟩
  · cases missing with
    | nil =>
      right
      refine ⟨[], ?_, List.nil_prefix⟩
      simpa using hfront.symm
    | cons c cs =>
      left
      constructor
      · exact ⟨c :: cs, hfront.symm⟩
      · intro he
        simp [he] at hfront
  · right
    exact ⟨more, hq, rest, hback.symm⟩

theorem head?_of_isPrefix {α : Type} {q whole : List α} {c : α} (h : q <+: whole) (hw : whole.head? = some c) :
    ∀ x ∈ q.head?, x = c := by
  intro x hx
  obtain ⟨rest, rfl⟩ := h
  obtain ⟨cs, rfl⟩ := List.head?_eq_some_iff.mp hx
  simpa using hw

/-- The rest of a text gives no more than its end, or no markup. -/
def Stops (unclosed : List (List Char)) (q : List Char) : Prop :=
  eventsIn unclosed q = [.eof] ∨ eventsIn unclosed q = [.malformed]

theorem stops_nil (unclosed : List (List Char)) : Stops unclosed [] := Or.inl (eventsIn_nil unclosed)

theorem stops_of_mark? (unclosed : List (List Char)) {cs : List Char} (h : mark? cs = none) :
    Stops unclosed ('<' :: cs) := by
  right
  rw [eventsIn, if_pos rfl]
  split <;> simp_all

/-- Before its `>` a tag has no end. -/
theorem cutTag_eq_none {quote : Option Char} {cs before after q : List Char}
    (h : cutTag quote cs = some (before, after)) (hq : q <+: before) : cutTag quote q = none := by
  induction cs generalizing quote before q with
  | nil => simp [cutTag] at h
  | cons c cs ih =>
    cases q with
    | nil => rfl
    | cons x q =>
      simp only [cutTag] at h
      split at h
      · cases h
        simp at hq
      · rename_i hopen
        obtain ⟨p, hp, he⟩ := Option.map_eq_some_iff.mp h
        cases he
        obtain ⟨rfl, htail⟩ := List.cons_prefix_cons.mp hq
        simp only [cutTag, if_neg hopen, ih hp htail, Option.map_none]

theorem stops_opening (unclosed : List (List Char)) {content q : List Char}
    (hhead : ∀ c ∈ content.head?, c ≠ '!' ∧ c ≠ '?' ∧ c ≠ '/')
    (hcut : cutTag none (content ++ ['>']) = some (content, []))
    (hq : q <+: '<' :: (content ++ ['>'])) (hne : q ≠ '<' :: (content ++ ['>'])) : Stops unclosed q := by
  cases q with
  | nil => exact stops_nil unclosed
  | cons x q =>
    obtain ⟨rfl, htail⟩ := List.cons_prefix_cons.mp hq
    have hshort : q <+: content :=
      (List.prefix_concat_iff.mp htail).resolve_left fun he => hne (congrArg ('<' :: ·) he)
    apply stops_of_mark?
    cases q with
    | nil => rfl
    | cons c q =>
      have hc : c ∈ content.head? := by
        obtain ⟨rest, hrest⟩ := hshort
        rw [← hrest]
        rfl
      rw [mark?_opening (hhead c hc), cutTag_eq_none hcut hshort, Option.map_none]

theorem stops_closing (unclosed : List (List Char)) {name q : List Char} (hplain : IsName name)
    (hq : q <+: '<' :: '/' :: (name ++ ['>'])) (hne : q ≠ '<' :: '/' :: (name ++ ['>'])) : Stops unclosed q := by
  cases q with
  | nil => exact stops_nil unclosed
  | cons x q =>
    obtain ⟨rfl, htail⟩ := List.cons_prefix_cons.mp hq
    apply stops_of_mark?
    cases q with
    | nil => rfl
    | cons y q =>
      obtain ⟨rfl, hname⟩ := List.cons_prefix_cons.mp htail
      have hshort : q <+: name :=
        (List.prefix_concat_iff.mp hname).resolve_left fun he => hne (congrArg ('<' :: '/' :: ·) he)
      have hcut : cutTag none (name ++ ['>']) = some (name, []) := by
        rw [cutTag_name hplain, cutTag_end, Option.map_some, List.append_nil]
      simp only [mark?, cutTag_eq_none hcut hshort, Option.map_none]

end Restyle.Markup
