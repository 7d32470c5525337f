import Restyle.Cli.Run
import Restyle.Proofs.Json.Print
import Restyle.Proofs.Style.Value

/-! # Styles as JSON

The JSON of a style is read back as that style, with the order of its keys, so no two styles print the
same text.
-/
namespace Restyle
namespace StyleValue

mutual

def ofJson? : JsonValue → Option StyleValue
  | .bool b => some (bool b)
  | .whole n => some (int n)
  | .text s => some (text s)
  | .members ms => (entriesOfJson? ms).map options
  | .items vs => (itemsOfJson? vs).map items
  | .null | .fraction _ => none

def entriesOfJson? : List (String × JsonValue) → Option (List (String × StyleValue))
  | [] => some []
  | (k, v) :: ms => do return (k, ← ofJson? v) :: (← entriesOfJson? ms)

def itemsOfJson? : List JsonValue → Option (List StyleValue)
  | [] => some []
  | v :: vs => do return (← ofJson? v) :: (← itemsOfJson? vs)

end

theorem entriesOfJson?_entriesToJson {entries : List (String × StyleValue)}
    (h : ∀ e ∈ entries, ofJson? (toJson e.2) = some e.2) : entriesOfJson? (entriesToJson entries) = some entries := by
  induction entries with
  | nil => rfl
  | cons e es ih =>
    obtain ⟨he, hes⟩ := List.forall_mem_cons.mp h
    rw [entriesToJson, entriesOfJson?, he, ih hes]
    rfl

theorem itemsOfJson?_itemsToJson {values : List StyleValue} (h : ∀ v ∈ values, ofJson? (toJson v) = some v) :
    itemsOfJson? (itemsToJson values) = some values := by
  induction values with
  | nil => rfl
  | cons v vs ih =>
    obtain ⟨hv, hvs⟩ := List.forall_mem_cons.mp h
    rw [itemsToJson, itemsOfJson?, hv, ih hvs]
    rfl

theorem ofJson?_toJson (v : StyleValue) : ofJson? (toJson v) = some v := by
  induction v with
  | bool b => rfl
  | int n => rfl
  | text s => rfl
  | options entries ih => rw [toJson, ofJson?, entriesOfJson?_entriesToJson ih, Option.map_some]
  | items values ih => rw [toJson, ofJson?, itemsOfJson?_itemsToJson ih, Option.map_some]

/-! ### Numbers -/

open JsonToken

theorem whole_entriesToJson {entries : List (String × StyleValue)} (h : ∀ e ∈ entries, Whole (toJson e.2)) :
    ∀ m ∈ entriesToJson entries, Whole m.2 := by
  induction entries with
  | nil => exact fun m hm => nomatch hm
  | cons e es ih =>
    obtain ⟨he, hes⟩ := List.forall_mem_cons.mp h
    exact List.forall_mem_cons.mpr ⟨he, ih hes⟩

theorem whole_itemsToJson {values : List StyleValue} (h : ∀ v ∈ values, Whole (toJson v)) :
    ∀ v ∈ itemsToJson values, Whole v := by
  induction values with
  | nil => exact fun v hv => nomatch hv
  | cons v vs ih =>
    obtain ⟨hv, hvs⟩ := List.forall_mem_cons.mp h
    exact List.forall_mem_cons.mpr ⟨hv, ih hvs⟩

theorem whole_toJson (v : StyleValue) : Whole (toJson v) := by
  induction v with
  | bool b => exact .bool b
  | int n => exact .whole n
  | text s => exact .text s
  | options entries ih => exact .members (whole_entriesToJson ih)
  | items values ih => exact .items (whole_itemsToJson ih)

end StyleValue

open JsonToken

theorem Hints.whole_toJson (h : Hints) : Whole h.toJson := by
  have hnumber : ∀ n, Whole (numberOrNull n) := by
    intro n
    cases n with
    | none => exact .null
    | some n => exact .whole n
  refine .members fun m hm => ?_
  simp only [List.mem_cons, List.not_mem_nil, or_false] at hm
  rcases hm with rfl | rfl | rfl | rfl
  exacts [hnumber _, hnumber _, hnumber _, .bool _]

theorem Cli.whole_styleReport (config : Option String) (hints : Option Hints) {s : Style} (h : Whole s.toJson) :
    Whole (styleReport config hints s) := by
  refine .members fun m hm => ?_
  simp only [List.mem_cons, List.not_mem_nil, or_false] at hm
  rcases hm with rfl | rfl | rfl
  · cases config with
    | none => exact .null
    | some file => exact .text file
  · cases hints with
    | none => exact .null
    | some hints => exact hints.whole_toJson
  · exact h

namespace Style

def ofJson? : JsonValue → Option Style
  | .members ms => (StyleValue.entriesOfJson? ms).map mk
  | _ => none

theorem whole_toJson (s : Style) : Whole s.toJson := StyleValue.whole_toJson (.options s.entries)

theorem ofJson?_toJson (s : Style) : ofJson? s.toJson = some s := by
  have hvalue := StyleValue.ofJson?_toJson (.options s.entries)
  rw [StyleValue.toJson, StyleValue.ofJson?] at hvalue
  obtain ⟨entries, hentries, hsame⟩ := Option.map_eq_some_iff.mp hvalue
  cases hsame
  rw [toJson, ofJson?, hentries, Option.map_some]

theorem toJson_injective {s t : Style} (h : s.toJson = t.toJson) : s = t := by
  have hread := s.ofJson?_toJson
  rw [h, ofJson?_toJson] at hread
  exact (Option.some.inj hread).symm

theorem toJson_eq_of_styleReport_eq {s t : Style} {config config' : Option String} {hints hints' : Option Hints}
    (h : Cli.styleReport config hints t = Cli.styleReport config' hints' s) : t.toJson = s.toJson := by
  simp only [Cli.styleReport, JsonValue.members.injEq, List.cons.injEq, Prod.mk.injEq, true_and, and_true] at h
  exact h.2.2

/-- Both texts of a style are read as the JSON of the style, and that is read back as the style, with its keys in
their order.  So styles that are not the same have different texts in each layout, and so have the reports about
them, whatever else these say. -/
theorem read_printed (s : Style) :
    JsonValue.read? s.toJson.compact = some s.toJson ∧ JsonValue.read? s.toJson.pretty = some s.toJson ∧
    ofJson? s.toJson = some s ∧
    ∀ t : Style, t ≠ s →
      t.toJson.compact ≠ s.toJson.compact ∧ t.toJson.pretty ≠ s.toJson.pretty ∧
      ∀ config hints config' hints',
        (Cli.styleReport config hints t).pretty ≠ (Cli.styleReport config' hints' s).pretty := by
  refine ⟨JsonValue.read?_print s.whole_toJson false, JsonValue.read?_print s.whole_toJson true, s.ofJson?_toJson,
    fun t hne => ⟨fun h => hne ?_, fun h => hne ?_, fun config hints config' hints' h => hne ?_⟩⟩
  · exact toJson_injective (JsonValue.eq_of_print_eq t.whole_toJson s.whole_toJson h)
  · exact toJson_injective (JsonValue.eq_of_print_eq t.whole_toJson s.whole_toJson h)
  · have hreport := JsonValue.eq_of_print_eq (Cli.whole_styleReport config hints t.whole_toJson)
      (Cli.whole_styleReport config' hints' s.whole_toJson) h
    exact toJson_injective (toJson_eq_of_styleReport_eq hreport)

end Style
end Restyle
