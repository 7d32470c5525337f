import Restyle.Markup.Event

/-! # Nesting of tags

The events of a text end once, and every closing tag among them closes the innermost open element.
-/
namespace Restyle.Markup

def Event.openAfter (unclosed : List (List Char)) : Event → List (List Char)
  | .start name _ => name :: unclosed
  | .stop _ => unclosed.tail
  | _ => unclosed

/-- Events that follow each other inside the elements `unclosed`, innermost first. -/
inductive Nested : List (List Char) → List Event → Prop
  | eof (unclosed : List (List Char)) : Nested unclosed [.eof]
  | malformed (unclosed : List (List Char)) : Nested unclosed [.malformed]
  | stop {outer : List (List Char)} {es : List Event} (name : List Char) (rest : Nested outer es) :
      Nested (name :: outer) (.stop name :: es)
  | other {unclosed : List (List Char)} {e : Event} {es : List Event}
      (continues : e ≠ .eof ∧ e ≠ .malformed ∧ ∀ name, e ≠ .stop name) (rest : Nested (e.openAfter unclosed) es) :
      Nested unclosed (e :: es)

theorem nested_eventsIn (unclosed : List (List Char)) (cs : List Char) : Nested unclosed (eventsIn unclosed cs) := by
  fun_induction eventsIn unclosed cs with
  | case1 unclosed => exact .eof unclosed
  | case2 unclosed => exact .malformed unclosed
  | case3 unclosed cs rest _ ih => exact .other (by simp) ih
  | case4 unclosed cs raw rest _ ih => exact .other (by simp) ih
  | case5 unclosed cs content rest _ _ name attributes _ ih => exact .other (by simp) ih
  | case6 unclosed cs content rest _ _ name attributes _ ih => exact .other (by simp) ih
  | case7 => exact .malformed _
  | case8 cs content rest _ outer ih => exact .stop _ ih
  | case9 => exact .malformed _
  | case10 unclosed c cs _ ih => exact .other (by simp) ih

theorem nested_events (cs : List Char) : Nested [] (events cs) := by
  unfold events
  split <;> exact nested_eventsIn [] _

/-- A closing tag closes the innermost open element. -/
theorem Nested.eq_of_stop {name innermost : List Char} {outer : List (List Char)} {es : List Event}
    (h : Nested (innermost :: outer) (.stop name :: es)) : name = innermost ∧ Nested outer es := by
  cases h with
  | stop name rest => exact ⟨rfl, rest⟩
  | other continues rest => exact absurd rfl (continues.2.2 name)

theorem Nested.tail {unclosed : List (List Char)} {e : Event} {es : List Event} (h : Nested unclosed (e :: es))
    (he : e ≠ .eof ∧ e ≠ .malformed) : Nested (e.openAfter unclosed) es := by
  cases h with
  | eof => exact absurd rfl he.1
  | malformed => exact absurd rfl he.2
  | stop name rest => exact rest
  | other continues rest => exact rest

end Restyle.Markup
