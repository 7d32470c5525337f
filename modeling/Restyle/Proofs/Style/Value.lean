import Restyle.Style.Basic

/-! # Values of options

Induction over values, and what stands at some depth of one.
-/
namespace Restyle
namespace StyleValue

/-- Induction over values with one case for each kind. -/
@[elab_as_elim, induction_eliminator]
theorem induct {motive : StyleValue → Prop} (bool : ∀ b, motive (.bool b)) (int : ∀ n, motive (.int n))
    (text : ∀ s, motive (.text s)) (options : ∀ entries, (∀ e ∈ entries, motive e.2) → motive (.options entries))
    (items : ∀ values, (∀ v ∈ values, motive v) → motive (.items values)) (v : StyleValue) : motive v :=
  @StyleValue.rec motive (fun entries => ∀ e ∈ entries, motive e.2) (fun values => ∀ v ∈ values, motive v)
    (fun e => motive e.2) bool int text options items
    (fun _ h => nomatch h) (fun _ _ he hes => List.forall_mem_cons.mpr ⟨he, hes⟩)
    (fun _ h => nomatch h) (fun _ _ hv hvs => List.forall_mem_cons.mpr ⟨hv, hvs⟩)
    (fun _ _ hv => hv) v

/-- A value stands at some depth of another one: it is that value, or it stands in an option or an item. -/
inductive Within (u : StyleValue) : StyleValue → Prop
  | self : Within u u
  | option {e : String × StyleValue} {entries : List (String × StyleValue)} (he : e ∈ entries)
    (h : Within u e.2) : Within u (.options entries)
  | item {v : StyleValue} {values : List StyleValue} (hv : v ∈ values) (h : Within u v) : Within u (.items values)

end StyleValue
end Restyle
