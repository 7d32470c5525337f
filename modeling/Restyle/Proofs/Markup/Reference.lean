import Restyle.Markup.Reference

/-! # References are read back

Every character that `escapeChar` does not write as it is becomes one reference, which resolves to that
character.  So `unescape` inverts `escape`, and an escaped text holds no `<`.
-/
namespace Restyle.Markup

/-- A character is written as it is, or as a reference that stands for it. -/
theorem escapeChar_cases (c : Char) :
    (escapeChar c = [c] ∧ c ≠ '&' ∧ c ≠ '<') ∨
    ∃ name, escapeChar c = '&' :: (name ++ [';']) ∧ resolve? name = some c ∧
      ';' ∉ name ∧ '&' ∉ name ∧ '<' ∉ name := by
  by_cases hamp : c = '&'
  · exact Or.inr ⟨"amp".toList, by rw [hamp]; rfl, by rw [hamp]; rfl, by decide⟩
  by_cases hlt : c = '<'
  · exact Or.inr ⟨"lt".toList, by rw [hlt]; rfl, by rw [hlt]; rfl, by decide⟩
  by_cases hgt : c = '>'
  · exact Or.inr ⟨"gt".toList, by rw [hgt]; rfl, by rw [hgt]; rfl, by decide⟩
  by_cases hapos : c = '\x27'
  · exact Or.inr ⟨"apos".toList, by rw [hapos]; rfl, by rw [hapos]; rfl, by decide⟩
  by_cases hquot : c = '"'
  · exact Or.inr ⟨"quot".toList, by rw [hquot]; rfl, by rw [hquot]; rfl, by decide⟩
  by_cases hfeed : c = '\n'
  · exact Or.inr ⟨"#10".toList, by rw [hfeed]; rfl, by rw [hfeed]; rfl, by decide⟩
  by_cases hreturn : c = '\r'
  · exact Or.inr ⟨"#13".toList, by rw [hreturn]; rfl, by rw [hreturn]; rfl, by decide⟩
  · exact Or.inl ⟨by simp [escapeChar, hamp, hlt, hgt, hapos, hquot, hfeed, hreturn], hamp, hlt⟩

/-- An open reference is read up to its semicolon. -/
theorem unescapeFrom_some {name : List Char} (hsemi : ';' ∉ name) (hamp : '&' ∉ name) (seen rest : List Char) :
    unescapeFrom (some seen) (name ++ ';' :: rest) =
      (resolve? (seen.reverse ++ name)).bind fun r => (unescapeFrom none rest).map (r :: ·) := by
  induction name generalizing seen with
  | nil => simp [unescapeFrom]
  | cons c name ih =>
    obtain ⟨hs, hsemi⟩ := List.ne_and_not_mem_of_not_mem_cons hsemi
    obtain ⟨ha, hamp⟩ := List.ne_and_not_mem_of_not_mem_cons hamp
    simp only [List.cons_append, unescapeFrom, if_neg (Ne.symm hs), if_neg (Ne.symm ha)]
    rw [ih hsemi hamp, List.reverse_cons, List.append_assoc]
    rfl

theorem unescapeFrom_escapeChar (c : Char) (cs : List Char) :
    unescapeFrom none (escapeChar c ++ cs) = (unescapeFrom none cs).map (c :: ·) := by
  rcases escapeChar_cases c with ⟨hc, hamp, -⟩ | ⟨name, hc, hname, hsemi, hamp, -⟩
  · rw [hc, List.singleton_append]
    simp only [unescapeFrom, if_neg hamp]
  · rw [hc, List.cons_append, List.append_assoc, List.singleton_append]
    simp only [unescapeFrom, if_pos]
    rw [unescapeFrom_some hsemi hamp, List.reverse_nil, List.nil_append, hname, Option.bind_some]

@[simp] theorem unescape_escape (cs : List Char) : unescape (escape cs) = some cs := by
  rw [unescape, escape]
  induction cs with
  | nil => rfl
  | cons c cs ih => rw [List.flatMap_cons, unescapeFrom_escapeChar, ih, Option.map_some]

theorem lt_not_mem_escape (cs : List Char) : '<' ∉ escape cs := by
  intro h
  obtain ⟨c, -, hc⟩ := List.mem_flatMap.mp h
  rcases escapeChar_cases c with ⟨he, -, hlt⟩ | ⟨name, he, -, -, -, hlt⟩
  · rw [he, List.mem_singleton] at hc
    exact hlt hc.symm
  · rw [he, List.mem_cons, List.mem_append, List.mem_singleton] at hc
    rcases hc with hc | hc | hc
    · exact absurd hc (by decide)
    · exact hlt hc
    · exact absurd hc (by decide)

/-- A text without ampersands holds no reference. -/
theorem unescape_of_amp_not_mem {cs : List Char} (h : '&' ∉ cs) : unescape cs = some cs := by
  rw [unescape]
  induction cs with
  | nil => rfl
  | cons c cs ih =>
    have hc : ¬c = '&' := fun hc => h (hc ▸ List.mem_cons_self)
    simp only [unescapeFrom, if_neg hc]
    rw [ih (fun hx => h (List.mem_cons_of_mem c hx)), Option.map_some]

end Restyle.Markup
