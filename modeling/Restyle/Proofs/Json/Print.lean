import Restyle.Json.Reader
import Restyle.Proofs.Text.Number

/-! # Printed JSON is read back

A value whose numbers are whole is read back from its text, in either layout.  First the text is cut into
the tokens of the value, whatever follows it, then the tokens are put together again.
-/
namespace Restyle

/-! ### Tokens of a text -/

namespace JsonToken
open JsonValue

def Apart (cs : List Char) : Prop := ∀ c rest, cs = c :: rest → isWordChar c = false

theorem apart_nil : Apart [] := fun _ _ h => nomatch h

theorem apart_cons {c : Char} (h : isWordChar c = false) (cs : List Char) : Apart (c :: cs) := by
  rintro c' rest hsame
  cases hsame
  exact h

theorem apart_gap {c : Char} (h : isWordChar c = false) (wide : Bool) (depth : Nat) (cs : List Char) :
    Apart (gap wide depth ++ c :: cs) := by
  cases wide with
  | false => exact apart_cons h cs
  | true => exact apart_cons (by decide) _

/-- A character that completes no token only changes what has been read of the current one. -/
theorem tokensFrom?_of_step {p q : Partial} {c : Char} (h : step? p c = some ([], q)) (cs : List Char) :
    tokensFrom? p (c :: cs) = tokensFrom? q cs := by
  simp only [tokensFrom?, h, Option.bind_some, List.nil_append, Option.map_id']

theorem tokens?_mark {c : Char} {t : JsonToken} (h : start? c = some ([t], .between)) (cs : List Char) :
    tokens? (c :: cs) = (tokens? cs).map (t :: ·) := by
  simp only [tokens?, tokensFrom?, step?, h, Option.bind_some, List.singleton_append]

theorem tokens?_space {c : Char} (h : start? c = some ([], .between)) (cs : List Char) :
    tokens? (c :: cs) = tokens? cs := tokensFrom?_of_step (p := .between) h cs

theorem tokens?_gap (wide : Bool) (depth : Nat) (cs : List Char) : tokens? (gap wide depth ++ cs) = tokens? cs := by
  have hspaces : ∀ n, tokens? (List.replicate n ' ' ++ cs) = tokens? cs := by
    intro n
    induction n with
    | zero => rfl
    | succ n ih => rw [List.replicate_succ, List.cons_append, tokens?_space rfl, ih]
  cases wide with
  | false => rfl
  | true =>
    rw [gap, if_pos rfl, List.cons_append, tokens?_space rfl, hspaces]

theorem tokens?_colon (wide : Bool) (cs : List Char) :
    tokens? (JsonValue.colon wide ++ cs) = (tokens? cs).map (JsonToken.colon :: ·) := by
  cases wide with
  | false => exact tokens?_mark rfl cs
  | true => rw [JsonValue.colon, if_pos rfl, List.cons_append, tokens?_mark rfl, List.singleton_append, tokens?_space rfl]

/-! ### Texts in quotes -/

theorem hexValue?_hexDigit {n : Nat} (h : n < 16) : Text.hexValue? (hexDigit n) = some n := by
  have hall : ∀ n < 16, Text.hexValue? (hexDigit n) = some n := by decide
  exact hall n h

/-- A character is read back from its escaped form. -/
theorem tokensFrom?_escapeChar (c : Char) (acc cs : List Char) :
    tokensFrom? (.text acc) (escapeChar c ++ cs) = tokensFrom? (.text (c :: acc)) cs := by
  have hshort : ∀ letter, letter ≠ 'u' → unescape? letter = some c →
      tokensFrom? (.text acc) ('\\' :: letter :: cs) = tokensFrom? (.text (c :: acc)) cs := by
    intro letter hletter hc
    have hslash : step? (.text acc) '\\' = some ([], .escape acc) := rfl
    rw [tokensFrom?_of_step hslash]
    exact tokensFrom?_of_step (by rw [step?, if_neg hletter, hc]; rfl) cs
  unfold escapeChar
  iterate 7
    split
    · subst c
      exact hshort _ (by decide) rfl
  rename_i hquote hslash _ _ _ _ _
  split
  · rename_i hlow
    have hhigh := hexValue?_hexDigit (n := c.toNat / 16) (by omega)
    have hrest := hexValue?_hexDigit (n := c.toNat % 16) (Nat.mod_lt _ (by decide))
    have hvalue : c.toNat / 16 * 16 + c.toNat % 16 = c.toNat := by omega
    have hend : endCode? acc none c.toNat = some (.text (c :: acc)) := by
      rw [endCode?, if_neg (by omega), if_neg (by omega), Char.ofNat_toNat]
    calc tokensFrom? (.text acc)
          ('\\' :: 'u' :: '0' :: '0' :: hexDigit (c.toNat / 16) :: hexDigit (c.toNat % 16) :: cs)
        = tokensFrom? (.code acc none 2 0) (hexDigit (c.toNat / 16) :: hexDigit (c.toNat % 16) :: cs) := by
          iterate 4 rw [tokensFrom?_of_step rfl]
          rfl
      _ = tokensFrom? (.code acc none 1 (c.toNat / 16)) (hexDigit (c.toNat % 16) :: cs) :=
          tokensFrom?_of_step (by simp [step?, hhigh]) _
      _ = tokensFrom? (.text (c :: acc)) cs := tokensFrom?_of_step (by simp [step?, hrest, hvalue, hend]) cs
  · rename_i hlow
    exact tokensFrom?_of_step (by rw [step?, if_neg hquote, if_neg hslash, if_neg hlow]) cs

theorem tokensFrom?_flatMap_escapeChar (s acc cs : List Char) :
    tokensFrom? (.text acc) (s.flatMap escapeChar ++ cs) = tokensFrom? (.text (s.reverse ++ acc)) cs := by
  induction s generalizing acc with
  | nil => rfl
  | cons c s ih =>
    rw [List.flatMap_cons, List.append_assoc, tokensFrom?_escapeChar, ih, List.reverse_cons, List.append_assoc,
      List.singleton_append]

theorem tokens?_quoted (s : String) (cs : List Char) : tokens? (quoted s ++ cs) = (tokens? cs).map (.text s :: ·) := by
  have hopen : ∀ cs, tokens? ('"' :: cs) = tokensFrom? (.text []) cs := tokensFrom?_of_step rfl
  have hclose : tokensFrom? (.text s.toList.reverse) ('"' :: cs) = (tokens? cs).map (.text s :: ·) := by
    simp [tokens?, tokensFrom?, step?]
  rw [quoted, List.cons_append, hopen, List.append_assoc, tokensFrom?_flatMap_escapeChar, List.append_nil,
    List.singleton_append, hclose]

/-! ### Words -/

theorem tokensFrom?_word {w : List Char} {t : JsonToken} {acc : List Char} (hw : ∀ c ∈ w, isWordChar c = true)
    (ht : ofWord? (acc.reverse ++ w) = some t) {cs : List Char} (hcs : Apart cs) :
    tokensFrom? (.word acc) (w ++ cs) = (tokens? cs).map (t :: ·) := by
  induction w generalizing acc with
  | nil =>
    rw [List.append_nil] at ht
    cases cs with
    | nil => simp [tokensFrom?, tokens?, ht]
    | cons c cs =>
      -- The character behind the word starts the next token, as it does where nothing was read before.
      have hc := hcs c cs rfl
      cases hstart : start? c with
      | none => simp [tokensFrom?, tokens?, step?, hc, ht, hstart]
      | some next => simp [tokensFrom?, tokens?, step?, hc, ht, hstart, Option.map_map, Function.comp_def]
  | cons c w ih =>
    obtain ⟨hc, hw⟩ := List.forall_mem_cons.mp hw
    rw [List.cons_append, tokensFrom?_of_step (by rw [step?, if_pos hc])]
    exact ih hw (by rwa [List.reverse_cons, List.append_assoc])

theorem tokens?_word {c : Char} {w : List Char} {t : JsonToken} (hstart : start? c = some ([], .word [c]))
    (hw : ∀ c ∈ w, isWordChar c = true) (ht : ofWord? (c :: w) = some t) {cs : List Char} (hcs : Apart cs) :
    tokens? (c :: (w ++ cs)) = (tokens? cs).map (t :: ·) := by
  rw [tokens?, tokensFrom?_of_step (p := .between) hstart]
  refine tokensFrom?_word hw ?_ hcs
  exact ht

/-! ### Whole numbers -/

theorem head?_toDigits {n : Nat} (h : 0 < n) : (Nat.toDigits 10 n).head? ≠ some '0' := by
  induction n using Nat.strongRecOn with
  | ind n ih =>
    rw [Nat.toDigits_eq_if (by decide)]
    split
    · rename_i hlt
      have hdigit : ∀ n < 10, 0 < n → n.digitChar ≠ '0' := by decide
      exact fun hhead => hdigit n hlt h (Option.some.inj hhead)
    · rw [List.head?_append_of_ne_nil _ Nat.toDigits_ne_nil]
      exact ih (n / 10) (by omega) (by omega)

theorem natural?_toString (n : Nat) : natural? (toString n).toList = some n := by
  have hdigits : ∀ c ∈ Nat.toDigits 10 n, c.isDigit = true :=
    fun _ hc => Nat.isDigit_of_mem_toDigits (by decide) (by decide) hc
  have hvalue : (Nat.toDigits 10 n).foldl (fun n c => n * 10 + (c.toNat - '0'.toNat)) 0 = n := by
    have hread := Nat.ofDigitChars_ten_toDigits (n := n)
    unfold Nat.ofDigitChars at hread
    simpa only [Nat.mul_comm] using hread
  have hzero : (Nat.toDigits 10 n).head? = some '0' → (Nat.toDigits 10 n).length = 1 := by
    intro hhead
    rcases Nat.eq_zero_or_pos n with rfl | hpos
    · rfl
    · exact absurd hhead (head?_toDigits hpos)
  rw [Text.toList_toString, natural?, if_neg, hvalue]
  simp only [Bool.or_eq_true, List.isEmpty_iff, Bool.not_eq_true', List.all_eq_false, Bool.and_eq_true,
    decide_eq_true_eq, not_or, not_and, not_not]
  exact ⟨⟨Nat.toDigits_ne_nil, fun ⟨c, hc, hnot⟩ => hnot (hdigits c hc)⟩, hzero⟩

theorem isWordChar_of_isDigit {c : Char} (h : c.isDigit = true) : isWordChar c = true := by
  simp [isWordChar, Char.isAlphanum, h]

theorem ofWord?_toString (n : Nat) : ofWord? (toString n).toList = some (.whole n) := by
  have hread := natural?_toString n
  have hdigits : ∀ c ∈ (toString n).toList, c.isDigit = true := fun _ hc => Text.isDigit_of_mem_toString hc
  obtain ⟨c, cs, hcs⟩ := List.exists_cons_of_ne_nil (Text.toList_toString_ne_nil n)
  rw [hcs] at hread hdigits ⊢
  have hc := hdigits c List.mem_cons_self
  have hother : ∀ d, d.isDigit = false → c ≠ d := by
    rintro d hd rfl
    rw [hc] at hd
    cases hd
  simp [ofWord?, hother 'n' rfl, hother 't' rfl, hother 'f' rfl, hother '-' rfl, hread]

theorem ofWord?_negative {n : Nat} (h : 0 < n) : ofWord? ('-' :: (toString n).toList) = some (.whole (-n)) := by
  have hne := Nat.pos_iff_ne_zero.mp h
  simp only [ofWord?, natural?_toString, if_neg hne, List.cons.injEq, Char.reduceEq, false_and, if_false, if_true]

theorem start?_word {c : Char} (h : isWordChar c = true) : start? c = some ([], .word [c]) := by
  have hspace : isSpace c = false := by
    rw [Bool.eq_false_iff]
    intro hspace
    simp only [isSpace, Bool.or_eq_true, beq_iff_eq] at hspace
    rcases hspace with ((rfl | rfl) | rfl) | rfl <;> exact absurd h (by decide)
  have hquote : c ≠ '"' := by
    rintro rfl
    exact absurd h (by decide)
  rw [start?, hspace, if_neg Bool.false_ne_true, if_neg hquote, if_pos h]

theorem tokens?_whole (n : Int) {cs : List Char} (hcs : Apart cs) :
    tokens? ((toString n).toList ++ cs) = (tokens? cs).map (.whole n :: ·) := by
  have hdigits : ∀ (n : Nat), ∀ c ∈ (toString n).toList, isWordChar c = true :=
    fun _ _ hc => isWordChar_of_isDigit (Text.isDigit_of_mem_toString hc)
  cases n with
  | ofNat n =>
    obtain ⟨c, w, hw⟩ := List.exists_cons_of_ne_nil (Text.toList_toString_ne_nil n)
    have hword := hdigits n
    have hread := ofWord?_toString n
    change tokens? ((toString n).toList ++ cs) = _
    rw [hw] at hword hread ⊢
    obtain ⟨hc, hword⟩ := List.forall_mem_cons.mp hword
    exact tokens?_word (start?_word hc) hword hread hcs
  | negSucc n =>
    rw [Text.toList_toString_negSucc]
    exact tokens?_word rfl (hdigits _) (ofWord?_negative n.succ_pos) hcs

/-! ### Tokens of a value -/

mutual

def ofValue : JsonValue → List JsonToken
  | .null => [null]
  | .bool b => [bool b]
  | .whole n => [whole n]
  | .fraction literal => [fraction literal]
  | .text s => [text s]
  | .items [] => [openItems, closeItems]
  | .items (v :: vs) => openItems :: (ofValue v ++ (ofItems vs ++ [closeItems]))
  | .members [] => [openMembers, closeMembers]
  | .members ((k, v) :: ms) => openMembers :: text k :: colon :: (ofValue v ++ (ofMembers ms ++ [closeMembers]))

def ofItems : List JsonValue → List JsonToken
  | [] => []
  | v :: vs => comma :: (ofValue v ++ ofItems vs)

def ofMembers : List (String × JsonValue) → List JsonToken
  | [] => []
  | (k, v) :: ms => comma :: text k :: colon :: (ofValue v ++ ofMembers ms)

end

/-- A value without any number that is not whole, at any depth. -/
inductive Whole : JsonValue → Prop
  | null : Whole .null
  | bool (b : Bool) : Whole (.bool b)
  | whole (n : Int) : Whole (.whole n)
  | text (s : String) : Whole (.text s)
  | items {vs : List JsonValue} (h : ∀ v ∈ vs, Whole v) : Whole (.items vs)
  | members {ms : List (String × JsonValue)} (h : ∀ m ∈ ms, Whole m.2) : Whole (.members ms)

/-- The text of a value is cut into its tokens, whatever follows that is no part of a word. -/
def CutAs (wide : Bool) (v : JsonValue) : Prop :=
  ∀ depth cs, Apart cs → tokens? (print wide depth v ++ cs) = (tokens? cs).map (ofValue v ++ ·)

theorem apart_printItems {c : Char} (h : isWordChar c = false) (wide : Bool) (depth outer : Nat) (vs : List JsonValue)
    (cs : List Char) : Apart (printItems wide depth vs ++ (gap wide outer ++ c :: cs)) := by
  cases vs with
  | nil => exact apart_gap h wide outer cs
  | cons v vs => exact apart_cons (by decide) _

theorem apart_printMembers {c : Char} (h : isWordChar c = false) (wide : Bool) (depth outer : Nat)
    (ms : List (String × JsonValue)) (cs : List Char) :
    Apart (printMembers wide depth ms ++ (gap wide outer ++ c :: cs)) := by
  cases ms with
  | nil => exact apart_gap h wide outer cs
  | cons m ms => exact apart_cons (by decide) _

theorem tokens?_printItems {wide : Bool} {vs : List JsonValue} (h : ∀ v ∈ vs, CutAs wide v) (depth outer : Nat) (cs : List Char) :
    tokens? (printItems wide depth vs ++ (gap wide outer ++ ']' :: cs)) =
      (tokens? cs).map fun ts => ofItems vs ++ closeItems :: ts := by
  induction vs with
  | nil => rw [printItems, List.nil_append, tokens?_gap, tokens?_mark rfl, ofItems]; rfl
  | cons v vs ih =>
    obtain ⟨hv, hvs⟩ := List.forall_mem_cons.mp h
    have happ := apart_printItems (c := ']') rfl wide depth outer vs cs
    simp only [printItems, List.cons_append, List.append_assoc, tokens?_mark (c := ',') rfl, tokens?_gap,
      hv depth _ happ, ih hvs, Option.map_map, Function.comp_def, ofItems]

theorem tokens?_printMembers {wide : Bool} {ms : List (String × JsonValue)} (h : ∀ m ∈ ms, CutAs wide m.2) (depth outer : Nat)
    (cs : List Char) :
    tokens? (printMembers wide depth ms ++ (gap wide outer ++ '\x7d' :: cs)) =
      (tokens? cs).map fun ts => ofMembers ms ++ closeMembers :: ts := by
  induction ms with
  | nil => rw [printMembers, List.nil_append, tokens?_gap, tokens?_mark rfl, ofMembers]; rfl
  | cons m ms ih =>
    obtain ⟨k, v⟩ := m
    obtain ⟨hv, hms⟩ := List.forall_mem_cons.mp h
    have happ := apart_printMembers (c := '\x7d') rfl wide depth outer ms cs
    simp only [printMembers, List.cons_append, List.append_assoc, tokens?_mark (c := ',') rfl, tokens?_gap,
      tokens?_quoted, tokens?_colon, hv depth _ happ, ih hms, Option.map_map, Function.comp_def, ofMembers]

/-- In either layout the text of a value is cut into its tokens. -/
theorem cutAs_of_whole (wide : Bool) {v : JsonValue} (h : Whole v) : CutAs wide v := by
  induction h with
  | null => exact fun _ cs hcs => tokens?_word rfl (List.all_eq_true.mp (by decide)) rfl hcs
  | bool b => cases b <;> exact fun _ cs hcs => tokens?_word rfl (List.all_eq_true.mp (by decide)) rfl hcs
  | whole n => exact fun _ cs hcs => by rw [print, tokens?_whole n hcs]; rfl
  | text s => exact fun _ cs _ => by rw [print, tokens?_quoted]; rfl
  | @items vs _ ih =>
    intro depth cs _
    cases vs with
    | nil =>
      rw [print, List.cons_append, List.singleton_append, tokens?_mark rfl, tokens?_mark rfl, Option.map_map]
      rfl
    | cons v vs =>
      obtain ⟨hv, hvs⟩ := List.forall_mem_cons.mp ih
      have happ := apart_printItems (c := ']') rfl wide (depth + 1) depth vs cs
      simp only [print, List.cons_append, List.append_assoc, List.nil_append, tokens?_mark (c := '[') rfl,
        tokens?_gap, hv (depth + 1) _ happ, tokens?_printItems hvs, Option.map_map, Function.comp_def, ofValue]
  | @members ms _ ih =>
    intro depth cs _
    cases ms with
    | nil =>
      rw [print, List.cons_append, List.singleton_append, tokens?_mark rfl, tokens?_mark rfl, Option.map_map]
      rfl
    | cons m ms =>
      obtain ⟨k, v⟩ := m
      obtain ⟨hv, hms⟩ := List.forall_mem_cons.mp ih
      have happ := apart_printMembers (c := '\x7d') rfl wide (depth + 1) depth ms cs
      simp only [print, List.cons_append, List.append_assoc, List.nil_append, tokens?_mark (c := '\x7b') rfl,
        tokens?_gap, tokens?_quoted, tokens?_colon, hv (depth + 1) _ happ, tokens?_printMembers hms, Option.map_map,
        Function.comp_def, ofValue]

end JsonToken

/-! ### Values of tokens -/

namespace JsonValue
open JsonToken

namespace Reading

def Awaits (r : Reading) : Prop := r.expected = .value ∨ r.expected = .valueOrClose

theorem Awaits.step_eq {r : Reading} (h : r.Awaits) {t : JsonToken} (ht : t ≠ .closeItems) : r.step t = r.value t := by
  obtain ⟨expected, stack⟩ := r
  rcases h with rfl | rfl
  · rfl
  · exact if_neg ht

def Yields (v : JsonValue) : Prop :=
  ∀ r : Reading, r.Awaits → ∀ ts, (ofValue v ++ ts).foldlM step r = (r.put v).bind fun r => ts.foldlM step r

theorem foldlM_ofItems {vs : List JsonValue} (h : ∀ v ∈ vs, Yields v) (done : List JsonValue) (stack : List Frame)
    (ts : List JsonToken) :
    (ofItems vs ++ ts).foldlM step ⟨.commaOrClose, .items done :: stack⟩ =
      ts.foldlM step ⟨.commaOrClose, .items (vs.reverse ++ done) :: stack⟩ := by
  induction vs generalizing done with
  | nil => rfl
  | cons v vs ih =>
    obtain ⟨hv, hvs⟩ := List.forall_mem_cons.mp h
    have hcomma : step ⟨.commaOrClose, .items done :: stack⟩ .comma = some ⟨.value, .items done :: stack⟩ := rfl
    have hput : put ⟨.value, .items done :: stack⟩ v = some ⟨.commaOrClose, .items (v :: done) :: stack⟩ := rfl
    rw [ofItems, List.cons_append, List.foldlM_cons, hcomma, Option.bind_eq_bind, Option.bind_some, List.append_assoc,
      hv _ (.inl rfl), hput, Option.bind_some, ih hvs, List.reverse_cons, List.append_assoc, List.singleton_append]

theorem foldlM_ofMembers {ms : List (String × JsonValue)} (h : ∀ m ∈ ms, Yields m.2)
    (done : List (String × JsonValue)) (stack : List Frame) (ts : List JsonToken) :
    (ofMembers ms ++ ts).foldlM step ⟨.commaOrClose, .members done none :: stack⟩ =
      ts.foldlM step ⟨.commaOrClose, .members (ms.reverse ++ done) none :: stack⟩ := by
  induction ms generalizing done with
  | nil => rfl
  | cons m ms ih =>
    obtain ⟨k, v⟩ := m
    obtain ⟨hv, hms⟩ := List.forall_mem_cons.mp h
    have hkey : ∀ ts, (.comma :: .text k :: .colon :: ts).foldlM step ⟨.commaOrClose, .members done none :: stack⟩ =
        ts.foldlM step ⟨.value, .members done (some k) :: stack⟩ := fun _ => rfl
    have hput : put ⟨.value, .members done (some k) :: stack⟩ v =
        some ⟨.commaOrClose, .members ((k, v) :: done) none :: stack⟩ := rfl
    rw [ofMembers, List.cons_append, List.cons_append, List.cons_append, hkey, List.append_assoc, hv _ (.inl rfl), hput,
      Option.bind_some, ih hms, List.reverse_cons, List.append_assoc, List.singleton_append]

theorem yields_of_whole {v : JsonValue} (h : Whole v) : Yields v := by
  have hleaf : ∀ {v : JsonValue} {t : JsonToken}, ofValue v = [t] → t ≠ .closeItems →
      (∀ r : Reading, r.value t = r.put v) → Yields v := by
    intro v t hone ht hvalue r hr ts
    rw [hone, List.singleton_append, List.foldlM_cons, hr.step_eq ht, hvalue]
    rfl
  induction h with
  | null => exact hleaf rfl (by decide) fun _ => rfl
  | bool b => exact hleaf rfl (by cases b <;> decide) fun _ => rfl
  | whole n => exact hleaf rfl JsonToken.noConfusion fun _ => rfl
  | text s => exact hleaf rfl JsonToken.noConfusion fun _ => rfl
  | @items vs _ ih =>
    intro r hr ts
    have hopen : r.step .openItems = some ⟨.valueOrClose, .items [] :: r.stack⟩ := hr.step_eq JsonToken.noConfusion
    cases vs with
    | nil =>
      rw [ofValue, List.cons_append, List.foldlM_cons, hopen]
      rfl
    | cons v vs =>
      obtain ⟨hv, hvs⟩ := List.forall_mem_cons.mp ih
      have hput : put ⟨.valueOrClose, .items [] :: r.stack⟩ v = some ⟨.commaOrClose, .items [v] :: r.stack⟩ := rfl
      have hclose : step ⟨.commaOrClose, .items (vs.reverse ++ [v]) :: r.stack⟩ .closeItems =
          r.put (.items (vs.reverse ++ [v]).reverse) := rfl
      rw [ofValue, List.cons_append, List.foldlM_cons, hopen, Option.bind_eq_bind, Option.bind_some, List.append_assoc,
        hv _ (.inr rfl), hput, Option.bind_some, List.append_assoc, foldlM_ofItems hvs, List.singleton_append,
        List.foldlM_cons, hclose, List.reverse_append, List.reverse_reverse, List.reverse_singleton,
        List.singleton_append, Option.bind_eq_bind]
  | @members ms _ ih =>
    intro r hr ts
    have hopen : r.step .openMembers = some ⟨.keyOrClose, .members [] none :: r.stack⟩ :=
      hr.step_eq JsonToken.noConfusion
    cases ms with
    | nil =>
      rw [ofValue, List.cons_append, List.foldlM_cons, hopen]
      rfl
    | cons m ms =>
      obtain ⟨k, v⟩ := m
      obtain ⟨hv, hms⟩ := List.forall_mem_cons.mp ih
      have hkey : ∀ ts, (.text k :: .colon :: ts).foldlM step ⟨.keyOrClose, .members [] none :: r.stack⟩ =
          ts.foldlM step ⟨.value, .members [] (some k) :: r.stack⟩ := fun _ => rfl
      have hput : put ⟨.value, .members [] (some k) :: r.stack⟩ v =
          some ⟨.commaOrClose, .members [(k, v)] none :: r.stack⟩ := rfl
      have hclose : step ⟨.commaOrClose, .members (ms.reverse ++ [(k, v)]) none :: r.stack⟩ .closeMembers =
          r.put (.members (ms.reverse ++ [(k, v)]).reverse) := rfl
      rw [ofValue, List.cons_append, List.cons_append, List.cons_append, List.foldlM_cons, hopen, Option.bind_eq_bind,
        Option.bind_some, hkey, List.append_assoc, hv _ (.inl rfl), hput, Option.bind_some, List.append_assoc,
        foldlM_ofMembers hms, List.singleton_append, List.foldlM_cons, hclose, List.reverse_append,
        List.reverse_reverse, List.reverse_singleton, List.singleton_append, Option.bind_eq_bind]

end Reading

/-- A value whose numbers are whole is read back from its text, in either layout. -/
theorem read?_print {v : JsonValue} (h : Whole v) (wide : Bool) : read? (String.ofList (print wide 0 v)) = some v := by
  have htokens : tokens? (print wide 0 v) = some (ofValue v) := by
    have hcut := cutAs_of_whole wide h 0 [] apart_nil
    simpa [tokens?, tokensFrom?] using hcut
  have hvalue := Reading.yields_of_whole h {} (.inl rfl) []
  rw [List.append_nil] at hvalue
  rw [read?, String.toList_ofList, htokens, Option.bind_some, hvalue]
  rfl

/-- Values whose numbers are whole have one text in common only if they are the same. -/
theorem eq_of_print_eq {v w : JsonValue} (hv : Whole v) (hw : Whole w) {wide other : Bool}
    (h : String.ofList (print wide 0 v) = String.ofList (print other 0 w)) : v = w := by
  have hread := read?_print hv wide
  rw [h, read?_print hw other] at hread
  exact (Option.some.inj hread).symm

end JsonValue
end Restyle
