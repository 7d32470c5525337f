import Mathlib.Data.List.Forall2
import Restyle.Proofs.Style.Value
import Restyle.Proofs.Text.Number
import Restyle.Proofs.Yaml.Keys
import Restyle.Style.Dump

/-! # What a dump says

A style mirrors the document that it was read from: the same keys and the same items in the same order,
at every depth.  A document is refused exactly if it is no mapping or if a key in it is no string.
-/
namespace Restyle
open Yaml

/-! ### The text of numbers -/

def Text.Solid (cs : List Char) : Prop := ∀ c ∈ cs, ¬isBlank c = true

namespace Text

instance (cs : List Char) : Decidable (Solid cs) := List.decidableBAll _ cs

theorem solid_toString (n : Nat) : Solid (toString n).toList :=
  fun _ hc => not_isBlank_of_isDigit (isDigit_of_mem_toString hc)

theorem solid_toDigits (n : Nat) : Solid (Nat.toDigits 10 n) := by
  rw [← toList_toString]
  exact solid_toString n

theorem solid_int (n : Int) : Solid (toString n).toList := by
  intro c hc
  rcases of_mem_toString_int hc with rfl | hdigit
  · decide
  · exact not_isBlank_of_isDigit hdigit

theorem solid_append {as bs : List Char} : Solid (as ++ bs) ↔ Solid as ∧ Solid bs := List.forall_mem_append

theorem solid_replicate (n : Nat) : Solid (List.replicate n '0') := by
  intro c hc
  rw [List.eq_of_mem_replicate hc]
  decide

theorem trim_of_solid {s : String} (h : Solid s.toList) : trim s = s := by
  rw [trim, trimChars_of_not_isBlank h, String.ofList_toList]

end Text

open Text

theorem Decimal.solid_layOut {digits : List Char} (h : Solid digits) (scale : Int) : Solid (layOut digits scale) := by
  have hpart : ∀ cs, cs ⊆ digits → Solid cs := fun cs hsub c hc => h c (hsub hc)
  unfold layOut
  dsimp only
  split
  · exact solid_append.mpr ⟨solid_append.mpr ⟨h, solid_replicate _⟩, by decide⟩
  split
  · exact solid_append.mpr ⟨hpart _ (List.take_subset _ _), List.forall_mem_cons.mpr
      ⟨by decide, hpart _ (List.drop_subset _ _)⟩⟩
  split
  · exact List.forall_mem_cons.mpr ⟨by decide, List.forall_mem_cons.mpr
      ⟨by decide, solid_append.mpr ⟨solid_replicate _, h⟩⟩⟩
  split
  · exact List.forall_mem_cons.mpr ⟨h _ List.mem_cons_self, List.forall_mem_cons.mpr ⟨by decide, solid_int _⟩⟩
  · rename_i d ds _
    refine List.forall_mem_cons.mpr ⟨h _ List.mem_cons_self, List.forall_mem_cons.mpr ⟨by decide, ?_⟩⟩
    exact solid_append.mpr ⟨hpart _ (List.subset_cons_self _ _), List.forall_mem_cons.mpr ⟨by decide, solid_int _⟩⟩
  · exact h

theorem Decimal.Binary.solid_text (b : Decimal.Binary) : Solid b.text := by
  unfold text
  split
  · decide
  · exact solid_layOut (solid_toDigits _) _

/-- The text of a number has no blanks. -/
theorem Yaml.Number.solid_text (n : Number) : Solid n.text.toList := by
  cases n with
  | whole n => exact solid_int n
  | real negative m =>
    rw [text, String.toList_ofList]
    split
    · exact List.forall_mem_cons.mpr ⟨by decide, m.solid_text⟩
    · exact m.solid_text
  | infinite negative => cases negative <;> decide
  | notANumber => decide

namespace StyleValue

theorem fitsSigned_iff (n : Int) :
    fitsSigned n = true ↔ -9223372036854775808 ≤ n ∧ n ≤ 9223372036854775807 := by
  have hmin : Int64.minValue.toInt = -9223372036854775808 := by decide
  have hmax : Int64.maxValue.toInt = 9223372036854775807 := by decide
  rw [fitsSigned, hmin, hmax, Bool.and_eq_true, decide_eq_true_eq, decide_eq_true_eq]

/-! ### Documents and styles -/

/-- What a value of a document becomes in a style. -/
inductive Conveys : Value → StyleValue → Prop
  | null : Conveys .null (.text "")
  | bool (b : Bool) : Conveys (.bool b) (.bool b)
  | int {n : Int} (h : -9223372036854775808 ≤ n ∧ n ≤ 9223372036854775807) : Conveys (.number (.whole n)) (.int n)
  | number {n : Number} (h : ∀ i : Int, -9223372036854775808 ≤ i ∧ i ≤ 9223372036854775807 → n ≠ .whole i) :
    Conveys (.number n) (.text n.text)
  | string (s : String) : Conveys (.string s) (.text (trim s))
  | sequence {values : List Value} {xs : List StyleValue} (h : List.Forall₂ Conveys values xs) :
    Conveys (.sequence values) (.items xs)
  | mapping {entries : List (Value × Value)} {xs : List (String × StyleValue)}
    (hkeys : entries.map (·.1) = xs.map fun x => .string x.1)
    (hvalues : List.Forall₂ Conveys (entries.map (·.2)) (xs.map (·.2))) :
    Conveys (.mapping entries) (.options xs)
  | tagged {v : Value} {x : StyleValue} (tag : String) (h : Conveys v x) : Conveys (.tagged tag v) x

theorem conveys_number_iff {n : Number} {x : StyleValue} : Conveys (.number n) x ↔ ofNumber n = x := by
  constructor
  · intro h
    cases h with
    | int h => rw [ofNumber, if_pos ((fitsSigned_iff _).mpr h)]
    | number h =>
      unfold ofNumber
      split
      · rename_i i
        split
        · rename_i hfits
          exact absurd rfl (h i ((fitsSigned_iff i).mp hfits))
        · rfl
      · rfl
  · rintro rfl
    unfold ofNumber
    split
    · rename_i i
      split
      · rename_i hfits
        exact .int ((fitsSigned_iff i).mp hfits)
      · rename_i hfits
        refine .number fun j hj hij => hfits ?_
        cases hij
        exact (fitsSigned_iff i).mpr hj
    · rename_i hwhole
      exact .number fun j _ hj => hwhole j hj

/-! ### Reading -/

theorem bind_eq_ok_iff {ε α β : Type} {x : Except ε α} {f : α → Except ε β} {b : β} :
    x.bind f = .ok b ↔ ∃ a, x = .ok a ∧ f a = .ok b := by
  cases x <;> simp [Except.bind]

theorem map_eq_ok_iff {ε α β : Type} {x : Except ε α} {f : α → β} {b : β} :
    x.map f = .ok b ↔ ∃ a, x = .ok a ∧ f a = b := by
  cases x <;> simp [Except.map]

theorem itemsOfYaml_eq_ok_iff {values : List Value} {xs : List StyleValue} :
    itemsOfYaml values = .ok xs ↔ List.Forall₂ (fun v x => ofYaml v = .ok x) values xs := by
  induction values generalizing xs with
  | nil =>
    rw [itemsOfYaml, List.forall₂_nil_left_iff, Except.ok.injEq]
    exact eq_comm
  | cons v vs ih =>
    simp only [itemsOfYaml, bind_eq_ok_iff, map_eq_ok_iff, List.forall₂_cons_left_iff, ih]
    constructor
    · rintro ⟨x, hx, ys, hys, rfl⟩
      exact ⟨x, ys, hx, hys, rfl⟩
    · rintro ⟨x, ys, hx, hys, rfl⟩
      exact ⟨x, hx, ys, hys, rfl⟩

theorem entriesOfYaml_eq_ok_iff {seen : List String} {entries : List (Value × Value)}
    {xs : List (String × StyleValue)} :
    entriesOfYaml seen entries = .ok xs ↔
      entries.map (·.1) = xs.map (fun x => .string x.1) ∧
      List.Forall₂ (fun v x => ofYaml v = .ok x) (entries.map (·.2)) (xs.map (·.2)) ∧
      (∀ x ∈ xs, x.1 ∉ seen) ∧ (xs.map (·.1)).Nodup := by
  induction entries generalizing seen xs with
  | nil =>
    rw [entriesOfYaml, Except.ok.injEq]
    constructor
    · rintro rfl
      exact ⟨rfl, .nil, fun _ hx => (nomatch hx), List.nodup_nil⟩
    · rintro ⟨hkeys, -⟩
      exact (List.map_eq_nil_iff.mp hkeys.symm).symm
  | cons e es ih =>
    obtain ⟨k, v⟩ := e
    constructor
    · intro h
      unfold entriesOfYaml at h
      split at h
      · cases ‹_ :: _ = []›
      · rename_i key _ _ hsame
        cases hsame
        obtain ⟨x, hx, h⟩ := bind_eq_ok_iff.mp h
        split at h
        · cases h
        · rename_i hseen
          obtain ⟨rest, hrest, rfl⟩ := map_eq_ok_iff.mp h
          obtain ⟨hkeys, hvalues, hnew, hnodup⟩ := ih.mp hrest
          refine ⟨congrArg (Value.string key :: ·) hkeys, .cons hx hvalues, ?_, ?_⟩
          · refine List.forall_mem_cons.mpr ⟨fun hmem => hseen (List.contains_iff_mem.mpr hmem), fun x hx hmem => ?_⟩
            exact hnew x hx (List.mem_cons_of_mem key hmem)
          · refine List.nodup_cons.mpr ⟨fun hmem => ?_, hnodup⟩
            obtain ⟨x, hx, hsame⟩ := List.mem_map.mp hmem
            exact hnew x hx (hsame ▸ List.mem_cons_self)
      · cases h
    · rintro ⟨hkeys, hvalues, hnew, hnodup⟩
      cases xs with
      | nil => cases hkeys
      | cons x xs =>
        obtain ⟨key, x⟩ := x
        obtain ⟨hkey, htail⟩ := List.cons.inj hkeys
        dsimp only at hkey
        subst hkey
        cases hvalues with
        | cons hx hvalues =>
          obtain ⟨hfresh, hnodup⟩ := List.nodup_cons.mp hnodup
          have hseen : seen.contains key = false := by
            rw [Bool.eq_false_iff]
            exact fun hmem => hnew _ List.mem_cons_self (List.contains_iff_mem.mp hmem)
          have hrest : entriesOfYaml (key :: seen) es = .ok xs := by
            refine ih.mpr ⟨htail, hvalues, fun y hy hmem => ?_, hnodup⟩
            rcases List.mem_cons.mp hmem with hsame | hmem
            · exact hfresh (List.mem_map.mpr ⟨y, hy, hsame⟩)
            · exact hnew y (List.mem_cons_of_mem _ hy) hmem
          rw [entriesOfYaml, bind_eq_ok_iff]
          refine ⟨x, hx, ?_⟩
          rw [hseen, hrest]
          rfl

/-- Keys that are strings and do not count as one are different texts. -/
theorem nodup_keys {entries : List (Value × Value)} {xs : List (String × StyleValue)}
    (hdistinct : entries.Pairwise fun e f => e.1.same f.1 = false)
    (hkeys : entries.map (·.1) = xs.map fun x => .string x.1) : (xs.map (·.1)).Nodup := by
  have hpairs : (entries.map (·.1)).Pairwise fun k l => k.same l = false := List.pairwise_map.mpr hdistinct
  rw [hkeys, List.pairwise_map] at hpairs
  refine List.pairwise_map.mpr (hpairs.imp fun hsame heq => ?_)
  rw [Value.same_string, decide_eq_false_iff_not] at hsame
  exact hsame heq

theorem forall₂_congr_left {α β : Type} {r s : α → β → Prop} {as : List α} {bs : List β}
    (h : ∀ a ∈ as, ∀ b, r a b ↔ s a b) : List.Forall₂ r as bs ↔ List.Forall₂ s as bs := by
  induction as generalizing bs with
  | nil => rw [List.forall₂_nil_left_iff, List.forall₂_nil_left_iff]
  | cons a as ih =>
    obtain ⟨ha, has⟩ := List.forall_mem_cons.mp h
    simp only [List.forall₂_cons_left_iff, ha, ih has]

/-- A document with distinct keys is read as what it conveys. -/
theorem ofYaml_eq_ok_iff {v : Value} {x : StyleValue} (h : v.DistinctKeys) : ofYaml v = .ok x ↔ Conveys v x := by
  induction v generalizing x with
  | null =>
    rw [ofYaml, Except.ok.injEq]
    exact ⟨fun h => h ▸ .null, fun h => by cases h; rfl⟩
  | bool b =>
    rw [ofYaml, Except.ok.injEq]
    exact ⟨fun h => h ▸ .bool b, fun h => by cases h; rfl⟩
  | number n => rw [ofYaml, Except.ok.injEq, conveys_number_iff]
  | string s =>
    rw [ofYaml, Except.ok.injEq]
    exact ⟨fun h => h ▸ .string s, fun h => by cases h; rfl⟩
  | sequence values ih =>
    have hvalues := Value.everyMapping_sequence.mp h
    rw [ofYaml, map_eq_ok_iff]
    simp only [itemsOfYaml_eq_ok_iff, forall₂_congr_left fun v hv x => ih v hv (hvalues v hv)]
    constructor
    · rintro ⟨xs, hxs, rfl⟩
      exact .sequence hxs
    · intro h
      cases h with
      | sequence hxs => exact ⟨_, hxs, rfl⟩
  | mapping entries ih =>
    obtain ⟨hdistinct, hvalues⟩ := Value.everyMapping_mapping.mp h
    have hstep : ∀ xs, List.Forall₂ (fun v x => ofYaml v = .ok x) (entries.map (·.2)) xs ↔
        List.Forall₂ Conveys (entries.map (·.2)) xs := by
      refine fun xs => forall₂_congr_left fun v hv x => ?_
      obtain ⟨e, he, rfl⟩ := List.mem_map.mp hv
      exact (ih e he).2 (hvalues e he)
    rw [ofYaml, map_eq_ok_iff]
    simp only [entriesOfYaml_eq_ok_iff, hstep]
    constructor
    · rintro ⟨xs, ⟨hkeys, hxs, -⟩, rfl⟩
      exact .mapping hkeys hxs
    · intro h
      cases h with
      | mapping hkeys hxs => exact ⟨_, ⟨hkeys, hxs, fun _ _ hmem => (nomatch hmem), nodup_keys hdistinct hkeys⟩, rfl⟩
  | tagged tag v ih =>
    rw [ofYaml, ih (Value.everyMapping_tagged.mp h)]
    constructor
    · exact .tagged tag
    · intro h
      cases h with
      | tagged _ h => exact h

/-! ### What is refused -/

theorem bind_eq_error_iff {ε α β : Type} {x : Except ε α} {f : α → Except ε β} {fault : ε} :
    x.bind f = .error fault ↔ x = .error fault ∨ ∃ a, x = .ok a ∧ f a = .error fault := by
  cases x <;> simp [Except.bind]

theorem map_eq_error_iff {ε α β : Type} {x : Except ε α} {f : α → β} {fault : ε} :
    x.map f = .error fault ↔ x = .error fault := by
  cases x <;> simp [Except.map]

theorem exists_of_itemsOfYaml_eq_error {values : List Value} {fault : DecodeFault}
    (h : itemsOfYaml values = .error fault) : ∃ v ∈ values, ofYaml v = .error fault := by
  induction values with
  | nil => cases h
  | cons v vs ih =>
    rcases bind_eq_error_iff.mp h with hv | ⟨x, -, hvs⟩
    · exact ⟨v, List.mem_cons_self, hv⟩
    · obtain ⟨w, hw, hfault⟩ := ih (map_eq_error_iff.mp hvs)
      exact ⟨w, List.mem_cons_of_mem v hw, hfault⟩

theorem exists_of_entriesOfYaml_eq_error {seen : List String} {entries : List (Value × Value)} {fault : DecodeFault}
    (hdistinct : entries.Pairwise fun e f => e.1.same f.1 = false)
    (hnew : ∀ e ∈ entries, ∀ k ∈ seen, e.1 ≠ .string k) (h : entriesOfYaml seen entries = .error fault) :
    ∃ e ∈ entries, ofYaml e.2 = .error fault ∨ (∀ k, e.1 ≠ .string k) ∧ fault = .nonStringKey e.1.describe := by
  induction entries generalizing seen with
  | nil => cases h
  | cons e es ih =>
    obtain ⟨hapart, hlater⟩ := List.pairwise_cons.mp hdistinct
    unfold entriesOfYaml at h
    split at h
    · cases h
    · rename_i key v rest hsame
      cases hsame
      rcases bind_eq_error_iff.mp h with hv | ⟨x, -, hrest⟩
      · exact ⟨_, List.mem_cons_self, .inl hv⟩
      -- The key is new, as those before it count as others.
      · rw [if_neg fun hseen => hnew _ List.mem_cons_self key (List.contains_iff_mem.mp hseen) rfl] at hrest
        have hnext : ∀ f ∈ es, ∀ l ∈ key :: seen, f.1 ≠ .string l := by
          intro f hf l hl hkey
          rcases List.mem_cons.mp hl with rfl | hl
          · have hsame := hapart f hf
            rw [hkey, Value.same_string] at hsame
            exact of_decide_eq_false hsame rfl
          · exact hnew f (List.mem_cons_of_mem _ hf) l hl hkey
        obtain ⟨f, hf, hfault⟩ := ih hlater hnext (map_eq_error_iff.mp hrest)
        exact ⟨f, List.mem_cons_of_mem _ hf, hfault⟩
    · rename_i k v rest hstring hsame
      cases hsame
      cases h
      exact ⟨_, List.mem_cons_self, .inr ⟨fun key hk => hstring key hk, rfl⟩⟩

/-- A document with distinct keys is refused only for a key that is no string. -/
theorem exists_of_ofYaml_eq_error {v : Value} {fault : DecodeFault} (hdistinct : v.DistinctKeys)
    (h : ofYaml v = .error fault) : ∃ key, v.StrayKey key ∧ fault = .nonStringKey key.describe := by
  induction v with
  | null => cases h
  | bool b => cases h
  | number n => cases h
  | string s => cases h
  | sequence values ih =>
    obtain ⟨v, hv, hfault⟩ := exists_of_itemsOfYaml_eq_error (map_eq_error_iff.mp h)
    obtain ⟨key, ⟨entries, hw, hkey⟩, hfault⟩ := ih v hv (Value.everyMapping_sequence.mp hdistinct v hv) hfault
    exact ⟨key, ⟨entries, .item hv hw, hkey⟩, hfault⟩
  | mapping entries ih =>
    obtain ⟨hapart, hvalues⟩ := Value.everyMapping_mapping.mp hdistinct
    obtain ⟨e, he, hfault | ⟨hstray, hfault⟩⟩ := exists_of_entriesOfYaml_eq_error hapart
      (fun _ _ _ hk => absurd hk List.not_mem_nil) (map_eq_error_iff.mp h)
    · obtain ⟨key, ⟨inner, hw, hkey⟩, hfault⟩ := (ih e he).2 (hvalues e he) hfault
      exact ⟨key, ⟨inner, .entry he hw, hkey⟩, hfault⟩
    · exact ⟨e.1, ⟨entries, .self, ⟨e, he, rfl⟩, hstray⟩, hfault⟩
  | tagged tag v ih =>
    obtain ⟨key, ⟨entries, hw, hkey⟩, hfault⟩ := ih (Value.everyMapping_tagged.mp hdistinct) h
    exact ⟨key, ⟨entries, .under hw, hkey⟩, hfault⟩

/-! ### What a style looks like -/

theorem exists_of_forall₂_right {α β : Type} {r : α → β → Prop} {as : List α} {bs : List β}
    (h : List.Forall₂ r as bs) {b : β} (hb : b ∈ bs) : ∃ a ∈ as, r a b := by
  induction h with
  | nil => cases hb
  | cons hab _ ih =>
    rcases List.mem_cons.mp hb with rfl | hb
    · exact ⟨_, List.mem_cons_self, hab⟩
    · obtain ⟨a, ha, hr⟩ := ih hb
      exact ⟨a, List.mem_cons_of_mem _ ha, hr⟩

theorem exists_of_forall₂_left {α β : Type} {r : α → β → Prop} {as : List α} {bs : List β}
    (h : List.Forall₂ r as bs) {a : α} (ha : a ∈ as) : ∃ b ∈ bs, r a b :=
  exists_of_forall₂_right h.flip ha

/-- Only documents whose keys are strings convey a style. -/
theorem Conveys.stringKeys {v : Value} {x : StyleValue} (h : Conveys v x) : v.StringKeys := by
  induction v generalizing x with
  | null => exact Value.everyMapping_null
  | bool b => exact Value.everyMapping_bool b
  | number n => exact Value.everyMapping_number n
  | string s => exact Value.everyMapping_string s
  | sequence values ih =>
    cases h with
    | sequence hxs =>
      refine Value.everyMapping_sequence.mpr fun v hv => ?_
      obtain ⟨x, -, hx⟩ := exists_of_forall₂_left hxs hv
      exact ih v hv hx
  | mapping entries ih =>
    cases h with
    | mapping hkeys hxs =>
      refine Value.everyMapping_mapping.mpr ⟨fun e he => ?_, fun e he => ?_⟩
      · have hkey : e.1 ∈ entries.map (·.1) := List.mem_map_of_mem he
        rw [hkeys] at hkey
        obtain ⟨x, -, hx⟩ := List.mem_map.mp hkey
        exact ⟨x.1, hx.symm⟩
      · obtain ⟨x, -, hx⟩ := exists_of_forall₂_left hxs (List.mem_map_of_mem he)
        exact (ih e he).2 hx
  | tagged tag v ih =>
    cases h with
    | tagged _ h => exact Value.everyMapping_tagged.mpr (ih h)

/-- Every text in a style, at any depth, is trimmed. -/
theorem Conveys.trim_eq {v : Value} {x : StyleValue} (h : Conveys v x) {t : String} (ht : Within (.text t) x) :
    trim t = t := by
  induction v generalizing x with
  | null =>
    cases h
    cases ht
    decide
  | bool b =>
    cases h
    cases ht
  | number n =>
    cases h with
    | int h => cases ht
    | number h =>
      cases ht
      exact trim_of_solid n.solid_text
  | string s =>
    cases h
    cases ht
    exact trim_trim s
  | sequence values ih =>
    cases h with
    | sequence hxs =>
      cases ht with
      | item hx ht =>
        obtain ⟨v, hv, hx⟩ := exists_of_forall₂_right hxs hx
        exact ih v hv hx ht
  | mapping entries ih =>
    cases h with
    | mapping hkeys hxs =>
      cases ht with
      | option hx ht =>
        obtain ⟨w, hw, hx⟩ := exists_of_forall₂_right hxs (List.mem_map_of_mem hx)
        obtain ⟨e, he, rfl⟩ := List.mem_map.mp hw
        exact (ih e he).2 hx ht
  | tagged tag v ih =>
    cases h with
    | tagged _ h => exact ih h ht

end StyleValue

namespace Style
open StyleValue

theorem ofDump_of_mapping {dump : String} {entries : List (Value × Value)}
    (h : Value.read? dump = some (.mapping entries)) : ofDump dump = (entriesOfYaml [] entries).map mk := by
  rw [ofDump, h]

theorem ofDump_of_not_mapping {dump : String} {v : Value} (h : Value.read? dump = some v)
    (hv : ¬∃ entries, v = .mapping entries) : ofDump dump = .error (.notMapping dump) := by
  rw [ofDump, h]
  cases v with
  | mapping entries => exact absurd ⟨entries, rfl⟩ hv
  | _ => rfl

theorem ofDump_eq_ok_iff {dump : String} {v : Value} (h : Value.read? dump = some v) (s : Style) :
    ofDump dump = .ok s ↔ (∃ entries, v = .mapping entries) ∧ Conveys v (.options s.entries) := by
  by_cases hv : ∃ entries, v = .mapping entries
  · obtain ⟨entries, rfl⟩ := hv
    rw [ofDump_of_mapping h, ← ofYaml_eq_ok_iff (distinctKeys_of_read? h), ofYaml, map_eq_ok_iff, map_eq_ok_iff]
    constructor
    · rintro ⟨xs, hxs, rfl⟩
      exact ⟨⟨entries, rfl⟩, xs, hxs, rfl⟩
    · rintro ⟨-, xs, hxs, hsame⟩
      cases hsame
      exact ⟨_, hxs, rfl⟩
  · rw [ofDump_of_not_mapping h hv]
    constructor
    · intro hok
      cases hok
    · rintro ⟨hmapping, -⟩
      exact absurd hmapping hv

theorem exists_of_ofDump_eq_error {dump : String} {v : Value} (h : Value.read? dump = some v) {fault : DecodeFault}
    (hfault : ofDump dump = .error fault) :
    (¬∃ entries, v = .mapping entries) ∧ fault = .notMapping dump ∨
      ∃ key, v.StrayKey key ∧ fault = .nonStringKey key.describe := by
  by_cases hv : ∃ entries, v = .mapping entries
  · obtain ⟨entries, rfl⟩ := hv
    rw [ofDump_of_mapping h, map_eq_error_iff] at hfault
    exact .inr (exists_of_ofYaml_eq_error (distinctKeys_of_read? h) (by rw [ofYaml, hfault]; rfl))
  · rw [ofDump_of_not_mapping h hv] at hfault
    cases hfault
    exact .inl ⟨hv, rfl⟩

/-- A dump that is no document is refused.  A document has no key twice.  It is read exactly if it is a mapping
without a tag in which every key, at every depth, is a string without a tag; the style is then what the document
conveys, and every text in it is trimmed.  Else it is refused because it is no mapping, or for a key in it. -/
theorem ofDump_conveys (dump : String) :
    (Value.read? dump = none → ofDump dump = .error .malformedYaml) ∧
    ∀ v, Value.read? dump = some v → v.DistinctKeys ∧
      ((∃ s, ofDump dump = .ok s) ↔ (∃ entries, v = .mapping entries) ∧ v.StringKeys) ∧
      (∀ s, ofDump dump = .ok s ↔ (∃ entries, v = .mapping entries) ∧ Conveys v (.options s.entries)) ∧
      (∀ s, ofDump dump = .ok s → ∀ t, Within (.text t) (.options s.entries) → trim t = t) ∧
      (∀ fault, ofDump dump = .error fault →
        (¬∃ entries, v = .mapping entries) ∧ fault = .notMapping dump ∨
        ∃ key, v.StrayKey key ∧ fault = .nonStringKey key.describe) := by
  refine ⟨fun h => by rw [ofDump, h], fun v h => ⟨distinctKeys_of_read? h, ⟨?_, ?_⟩, ofDump_eq_ok_iff h, ?_, ?_⟩⟩
  · rintro ⟨s, hs⟩
    obtain ⟨hmapping, hconveys⟩ := (ofDump_eq_ok_iff h s).mp hs
    exact ⟨hmapping, hconveys.stringKeys⟩
  · rintro ⟨hmapping, hkeys⟩
    cases hresult : ofDump dump with
    | ok s => exact ⟨s, rfl⟩
    | error fault =>
      rcases exists_of_ofDump_eq_error h hresult with ⟨hnone, -⟩ | ⟨key, ⟨entries, hw, ⟨e, he, rfl⟩, hstray⟩, -⟩
      · exact absurd hmapping hnone
      · obtain ⟨k, hk⟩ := hkeys entries hw e he
        exact absurd hk (hstray k)
  · intro s hs t ht
    obtain ⟨-, hconveys⟩ := (ofDump_eq_ok_iff h s).mp hs
    exact hconveys.trim_eq ht
  · exact fun fault hfault => exists_of_ofDump_eq_error h hfault

/-- A dump with a mapping under a tag, and another mapping in that. -/
def nestedDump : String := "A: [~, 007, 18446744073709551615, ' x ']\nB: !t \x7bC: -1, D: \x7bE: on\x7d\x7d\n"

def taggedKeyDump : String := "A: 1\nB: [\x7b!t C: 2\x7d]\n"

/-- Tags on values are left out, but a tag on a key is refused. -/
theorem ofDump_conveys_nested :
    (∃ v s, Value.read? nestedDump = some v ∧ ofDump nestedDump = .ok s ∧
      v.StringKeys ∧ Conveys v (.options s.entries) ∧
      (StyleValue.options s.entries).toJson.compact = "\x7b\"A\":[\"\",\"007\",\"18446744073709551615\",\"x\"]," ++
        "\"B\":\x7b\"C\":-1,\"D\":\x7b\"E\":\"on\"\x7d\x7d\x7d") ∧
    ∃ v key, Value.read? taggedKeyDump = some v ∧ v.StrayKey key ∧
      key.describe = "TaggedValue \x7b tag: !t, value: String(\"C\") \x7d" := by
  constructor
  · have hshown : (ofDump nestedDump).map (fun s => (StyleValue.options s.entries).toJson.compact) =
        .ok ("\x7b\"A\":[\"\",\"007\",\"18446744073709551615\",\"x\"]," ++
          "\"B\":\x7b\"C\":-1,\"D\":\x7b\"E\":\"on\"\x7d\x7d\x7d") := by
      decide +kernel
    obtain ⟨s, hs, hshown⟩ := map_eq_ok_iff.mp hshown
    have hdocument : (Value.read? nestedDump).isSome = true := by decide +kernel
    obtain ⟨v, hv⟩ := Option.isSome_iff_exists.mp hdocument
    obtain ⟨-, hread, hconveys, -⟩ := (ofDump_conveys nestedDump).2 v hv
    exact ⟨v, s, hv, hs, (hread.mp ⟨s, hs⟩).2, ((hconveys s).mp hs).2, hshown⟩
  · have hrefused : (ofDump taggedKeyDump).map (fun s => (StyleValue.options s.entries).toJson.compact) =
        .error (.nonStringKey "TaggedValue \x7b tag: !t, value: String(\"C\") \x7d") := by
      decide +kernel
    have hdocument : (Value.read? taggedKeyDump).isSome = true := by decide +kernel
    obtain ⟨v, hv⟩ := Option.isSome_iff_exists.mp hdocument
    obtain ⟨-, -, -, -, hfaults⟩ := (ofDump_conveys taggedKeyDump).2 v hv
    rcases hfaults _ (map_eq_error_iff.mp hrefused) with ⟨-, hnot⟩ | ⟨key, hstray, hkey⟩
    · cases hnot
    · exact ⟨v, key, hv, hstray, (DecodeFault.nonStringKey.inj hkey).symm⟩

end Style
end Restyle
