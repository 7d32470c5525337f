import Restyle.Yaml.Value

/-! # Keys of documents

What stands at some depth of a value, and what the reader makes sure of: no mapping of a document has
two keys that count as one, whatever it stands in.
-/
namespace Restyle.Yaml
namespace Value

/-- Induction over values with one case for each kind. -/
@[elab_as_elim, induction_eliminator]
theorem induct {motive : Value → Prop} (null : motive .null) (bool : ∀ b, motive (.bool b))
    (number : ∀ n, motive (.number n)) (string : ∀ s, motive (.string s))
    (sequence : ∀ items, (∀ v ∈ items, motive v) → motive (.sequence items))
    (mapping : ∀ entries, (∀ e ∈ entries, motive e.1 ∧ motive e.2) → motive (.mapping entries))
    (tagged : ∀ tag v, motive v → motive (.tagged tag v)) (v : Value) : motive v :=
  @Value.rec motive (fun items => ∀ v ∈ items, motive v) (fun entries => ∀ e ∈ entries, motive e.1 ∧ motive e.2)
    (fun e => motive e.1 ∧ motive e.2) null bool number string sequence mapping tagged
    (fun _ h => nomatch h) (fun _ _ hv hvs => List.forall_mem_cons.mpr ⟨hv, hvs⟩)
    (fun _ h => nomatch h) (fun _ _ he hes => List.forall_mem_cons.mpr ⟨he, hes⟩)
    (fun _ _ hk hv => ⟨hk, hv⟩) v

/-- A value stands at some depth of another one: it is that value, or it stands in an item, in the value
of an entry, or under a tag. -/
inductive Within (u : Value) : Value → Prop
  | self : Within u u
  | item {v : Value} {items : List Value} (hv : v ∈ items) (h : Within u v) : Within u (.sequence items)
  | entry {e : Value × Value} {entries : List (Value × Value)} (he : e ∈ entries) (h : Within u e.2) :
    Within u (.mapping entries)
  | under {tag : String} {v : Value} (h : Within u v) : Within u (.tagged tag v)

def EveryMapping (p : List (Value × Value) → Prop) (v : Value) : Prop :=
  ∀ entries, Within (.mapping entries) v → p entries

section EveryMapping
variable {p : List (Value × Value) → Prop}

theorem everyMapping_ofScalar (s : Scalar) : EveryMapping p (ofScalar s) := by
  intro entries h
  cases s <;> cases h

@[simp] theorem everyMapping_null : EveryMapping p .null := everyMapping_ofScalar .null
@[simp] theorem everyMapping_bool (b : Bool) : EveryMapping p (.bool b) := everyMapping_ofScalar (.bool b)
@[simp] theorem everyMapping_number (n : Number) : EveryMapping p (.number n) := everyMapping_ofScalar (.number n)
@[simp] theorem everyMapping_string (s : String) : EveryMapping p (.string s) := everyMapping_ofScalar (.string s)

@[simp] theorem everyMapping_sequence {items : List Value} :
    EveryMapping p (.sequence items) ↔ ∀ v ∈ items, EveryMapping p v := by
  constructor
  · intro h v hv entries hw
    exact h entries (.item hv hw)
  · intro h entries hw
    cases hw with
    | item hv hw => exact h _ hv entries hw

@[simp] theorem everyMapping_mapping {entries : List (Value × Value)} :
    EveryMapping p (.mapping entries) ↔ p entries ∧ ∀ e ∈ entries, EveryMapping p e.2 := by
  constructor
  · intro h
    exact ⟨h entries .self, fun e he inner hw => h inner (.entry he hw)⟩
  · rintro ⟨hp, h⟩ inner hw
    cases hw with
    | self => exact hp
    | entry he hw => exact h _ he inner hw

@[simp] theorem everyMapping_tagged {tag : String} {v : Value} :
    EveryMapping p (.tagged tag v) ↔ EveryMapping p v := by
  constructor
  · intro h entries hw
    exact h entries (.under hw)
  · intro h entries hw
    cases hw with
    | under hw => exact h entries hw

end EveryMapping

/-- No mapping at any depth has two keys that count as one. -/
def DistinctKeys (v : Value) : Prop := EveryMapping (List.Pairwise fun e f => e.1.same f.1 = false) v

def StringKeys (v : Value) : Prop := EveryMapping (fun entries => ∀ e ∈ entries, ∃ k, e.1 = .string k) v

/-- A key of a mapping at some depth is no string. -/
def StrayKey (v key : Value) : Prop :=
  ∃ entries, Within (.mapping entries) v ∧ (∃ e ∈ entries, e.1 = key) ∧ ∀ k, key ≠ .string k

theorem same_string (a b : String) : same (.string a) (.string b) = decide (a = b) := by
  simp [same, height, sameUpTo]

end Value

/-! ### What the reader makes sure of -/

theorem pairwise_of_distinctKeys {entries : List (Value × Value)} (h : distinctKeys entries = true) :
    entries.Pairwise fun e f => e.1.same f.1 = false := by
  induction entries with
  | nil => exact List.Pairwise.nil
  | cons e es ih =>
    simp only [distinctKeys, Bool.and_eq_true, Bool.not_eq_true', List.any_eq_false] at h
    exact List.Pairwise.cons (fun f hf => Bool.eq_false_iff.mpr (h.1 f hf)) (ih h.2)

theorem distinctKeys_underTag {v : Value} (tag : Option (List Char)) (h : v.DistinctKeys) :
    (underTag tag v).DistinctKeys := by
  unfold underTag
  split
  · exact Value.everyMapping_tagged.mpr h
  · exact Value.everyMapping_tagged.mpr h
  · exact h

/-- What each step of a counted run yields has what every yield of a step has. -/
theorem forall_mem_eachCounted {α β : Type} {step : Nat → α → Option (Nat × β)} {p : β → Prop}
    (hstep : ∀ count x r, step count x = some r → p r.2) {xs : List α} {count : Nat} {r : Nat × List β}
    (h : eachCounted step count xs = some r) : ∀ y ∈ r.2, p y := by
  induction xs generalizing count r with
  | nil =>
    cases h
    exact fun y hy => nomatch hy
  | cons x xs ih =>
    obtain ⟨first, hfirst, h⟩ := Option.bind_eq_some_iff.mp h
    obtain ⟨rest, hrest, h⟩ := Option.bind_eq_some_iff.mp h
    cases h
    exact List.forall_mem_cons.mpr ⟨hstep count x first hfirst, ih hrest⟩

theorem distinctKeys_valueOf (links : Links) (depth : Nat) {followed : Nat} {n : Node} {r : Nat × Value}
    (h : valueOf links depth followed n = some r) : r.2.DistinctKeys := by
  induction depth using Nat.strongRecOn generalizing followed n r with
  | ind depth ih =>
    unfold valueOf at h
    split at h
    · cases h
    · cases h
      exact Value.everyMapping_null
    · obtain ⟨s, -, rfl⟩ := Option.map_eq_some_iff.mp h
      exact distinctKeys_underTag _ (Value.everyMapping_ofScalar s)
    · split at h
      · cases h
      · rename_i depth
        obtain ⟨items, hitems, rfl⟩ := Option.map_eq_some_iff.mp h
        have hbelow := forall_mem_eachCounted (fun _ _ _ => ih depth depth.lt_succ_self) hitems
        exact distinctKeys_underTag _ (Value.everyMapping_sequence.mpr hbelow)
    · split at h
      · cases h
      · rename_i depth
        obtain ⟨entries, hentries, h⟩ := Option.bind_eq_some_iff.mp h
        split at h
        · rename_i hdistinct
          cases h
          refine distinctKeys_underTag _ (Value.everyMapping_mapping.mpr ⟨pairwise_of_distinctKeys hdistinct, ?_⟩)
          refine forall_mem_eachCounted (fun count e r hr => ?_) hentries
          obtain ⟨k, -, hr⟩ := Option.bind_eq_some_iff.mp hr
          obtain ⟨v, hv, rfl⟩ := Option.map_eq_some_iff.mp hr
          exact ih depth depth.lt_succ_self hv
        · cases h

/-- No mapping of a document that was read, at any depth, has two keys that count as one. -/
theorem distinctKeys_of_read? {text : String} {v : Value} (h : Value.read? text = some v) : v.DistinctKeys := by
  unfold Value.read? at h
  obtain ⟨_, -, h⟩ := Option.bind_eq_some_iff.mp h
  obtain ⟨root, -, h⟩ := Option.bind_eq_some_iff.mp h
  split at h
  · cases h
    exact Value.everyMapping_null
  · obtain ⟨linked, -, h⟩ := Option.bind_eq_some_iff.mp h
    obtain ⟨r, hr, h⟩ := Option.bind_eq_some_iff.mp h
    cases h
    exact distinctKeys_valueOf _ _ hr

end Restyle.Yaml
