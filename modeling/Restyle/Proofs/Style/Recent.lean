import Mathlib.Data.List.Dedup
import Mathlib.Data.List.DropRight
import Restyle.Proofs.File.Path
import Restyle.Proofs.Text.Number
import Restyle.Style.Recent

/-! # The latest of what was put in

Which values are kept depends on the order of their latest insertions only: the values of the last five hundred
different paths, the oldest first.
-/
namespace Restyle.Recent
open Restyle.Path

variable {α : Type}

def insertAll (r : Recent α) (puts : List (String × α)) : Recent α := puts.foldl (fun r p => r.insert p.1 p.2) r

def filled (puts : List (String × α)) : Recent α := insertAll {} puts

def keyed (puts : List (String × α)) : List (Key × α) := puts.map fun p => (key p.1, p.2)

/-- The insertions that are not replaced by a later one of the same path. -/
def latest : List (Key × α) → List (Key × α)
  | [] => []
  | e :: later => if e.1 ∈ later.map (·.1) then latest later else e :: latest later

theorem map_fst_latest (l : List (Key × α)) : (latest l).map (·.1) = (l.map (·.1)).dedup := by
  induction l with
  | nil => rfl
  | cons e later ih =>
    unfold latest
    split
    · rw [List.map_cons, List.dedup_cons_of_mem ‹_›, ih]
    · rw [List.map_cons, List.map_cons, List.dedup_cons_of_notMem ‹_›, ih]

theorem length_latest (l : List (Key × α)) : (latest l).length = (l.map (·.1)).dedup.length := by
  rw [← map_fst_latest, List.length_map]

theorem nodup_latest (l : List (Key × α)) : ((latest l).map (·.1)).Nodup := by
  rw [map_fst_latest]
  exact List.nodup_dedup _

/-- Where no path comes twice nothing is replaced. -/
theorem latest_of_nodup {l : List (Key × α)} (h : (l.map (·.1)).Nodup) : latest l = l := by
  induction l with
  | nil => rfl
  | cons e later ih =>
    obtain ⟨hnew, hlater⟩ := List.nodup_cons.mp h
    rw [latest, if_neg hnew, ih hlater]

theorem latest_append (l later : List (Key × α)) :
    latest (l ++ later) = (latest l).filter (·.1 ∉ later.map (·.1)) ++ latest later := by
  induction l with
  | nil => rfl
  | cons e l ih =>
    by_cases hl : e.1 ∈ l.map (·.1) <;> by_cases hlater : e.1 ∈ later.map (·.1) <;>
      simp_all [latest]

/-! ### The end of a list -/

theorem rtake_of_length_le {β : Type} {l : List β} {n : Nat} (h : l.length ≤ n) : l.rtake n = l := by
  rw [List.rtake, Nat.sub_eq_zero_of_le h, List.drop_zero]

theorem rtake_append {β : Type} (front back : List β) (n : Nat) :
    (front ++ back).rtake n = front.rtake (n - back.length) ++ back.rtake n := by
  have hback : front.length + back.length - n - front.length = back.length - n := by omega
  simp only [List.rtake, List.drop_append, List.length_append, hback]
  rcases Nat.le_total n back.length with h | h
  · rw [Nat.sub_eq_zero_of_le h, Nat.sub_zero, List.drop_length, List.drop_eq_nil_of_le (by omega)]
  · rw [Nat.sub_sub_right _ h]

/-- A list of different keys is at most one longer than without one of them. -/
theorem length_le_length_filter {l : List (Key × α)} (h : (l.map (·.1)).Nodup) (k : Key) :
    l.length ≤ (l.filter (·.1 ≠ k)).length + 1 := by
  have hkeys : (l.filter (·.1 ≠ k)).map (·.1) = (l.map (·.1)).erase k := by
    rw [h.erase_eq_filter, List.filter_map]
    congr 2
    funext e
    simp [bne, Function.comp, beq_eq_decide]
  have hlength := congrArg List.length hkeys
  rw [List.length_map, List.length_erase, List.length_map] at hlength
  split at hlength <;> omega

theorem rtake_filter_rtake {l : List (Key × α)} (h : (l.map (·.1)).Nodup) (k : Key) (n : Nat) :
    ((l.rtake (n + 1)).filter (·.1 ≠ k)).rtake n = (l.filter (·.1 ≠ k)).rtake n := by
  by_cases hshort : l.length ≤ n + 1
  · rw [rtake_of_length_le hshort]
  · obtain ⟨front, hfront⟩ : ∃ front, front ++ l.rtake (n + 1) = l := ⟨_, List.take_append_drop _ l⟩
    have hlength : (l.rtake (n + 1)).length = n + 1 := by
      rw [List.rtake, List.length_drop]
      omega
    have hnodup : ((l.rtake (n + 1)).map (·.1)).Nodup := h.sublist ((List.drop_sublist _ l).map _)
    have hmost := length_le_length_filter hnodup k
    -- So many keys are left at the end that those in front of it do not matter.
    have henough : n - ((l.rtake (n + 1)).filter (·.1 ≠ k)).length = 0 := by omega
    conv_rhs => rw [← hfront, List.filter_append, rtake_append, henough, List.rtake_zero, List.nil_append]

/-! ### One insertion and many -/

/-- Where the list is full, its oldest entry makes room. -/
theorem makeRoom {β : Type} {l : List β} {n : Nat} (h : l.length ≤ n + 1) :
    (if n + 1 ≤ l.length then l.drop 1 else l) = l.rtake n := by
  split
  · have hone : l.length - n = 1 := by omega
    rw [List.rtake, hone]
  · exact (rtake_of_length_le (by omega)).symm

theorem entries_insert {r : Recent α} {l : List (Key × α)} (h : r.entries = (latest l).rtake capacity) (path : String)
    (value : α) : (r.insert path value).entries = (latest (l ++ [(key path, value)])).rtake capacity := by
  have hlatest : latest (l ++ [(key path, value)]) = (latest l).filter (·.1 ≠ key path) ++ [(key path, value)] := by
    simp [latest_append, latest]
  obtain ⟨n, hn⟩ : ∃ n, capacity = n + 1 := ⟨499, rfl⟩
  have hlength : (r.erase path).entries.length ≤ n + 1 := by
    refine Nat.le_trans (List.length_filter_le _ _) ?_
    rw [h, hn, List.rtake, List.length_drop]
    omega
  unfold insert
  dsimp only
  rw [hn, makeRoom hlength, hlatest, List.rtake_concat_succ, ← rtake_filter_rtake (nodup_latest l), ← hn, ← h]
  rfl

theorem entries_insertAll {r : Recent α} {l : List (Key × α)} (h : r.entries = (latest l).rtake capacity)
    (puts : List (String × α)) : (r.insertAll puts).entries = (latest (l ++ keyed puts)).rtake capacity := by
  induction puts generalizing r l with
  | nil => simpa [insertAll, keyed] using h
  | cons p puts ih => simpa [insertAll, keyed] using ih (entries_insert h p.1 p.2)

theorem find?_rtake_eq_none {l : List (Key × α)} {k : Key} (h : k ∉ l.map (·.1)) (n : Nat) :
    (l.rtake n).find? (·.1 = k) = none := by
  refine List.find?_eq_none.mpr fun e he => ?_
  have hmem : e ∈ l := List.mem_of_mem_drop he
  simpa using fun hk : e.1 = k => h (hk ▸ List.mem_map_of_mem hmem)

/-- A value is found until as many other paths as there is room for were put in after it. -/
theorem get?_of_entries {r : Recent α} {l later : List (Key × α)} {path : String} {value : α}
    (h : r.entries = (latest (l ++ (key path, value) :: later)).rtake capacity) (hlater : key path ∉ later.map (·.1)) :
    r.get? path = if (later.map (·.1)).dedup.length < capacity then some value else none := by
  obtain ⟨others, hsplit, hothers⟩ : ∃ others, latest (l ++ (key path, value) :: later) =
      others ++ [(key path, value)] ++ latest later ∧ key path ∉ others.map (·.1) := by
    refine ⟨(latest l).filter (·.1 ∉ ((key path, value) :: later).map (·.1)), ?_, ?_⟩
    · rw [latest_append, latest, if_neg hlater, List.append_assoc, List.singleton_append]
    · simp
  have hend := find?_rtake_eq_none (l := latest later) (k := key path) (by simpa [map_fst_latest] using hlater) capacity
  rw [get?, h, hsplit, rtake_append, length_latest, List.find?_append, hend, Option.or_none]
  split
  · rename_i hroom
    obtain ⟨n, hn⟩ := Nat.exists_eq_add_of_lt hroom
    have hplaces : capacity - (later.map (·.1)).dedup.length = n + 1 := by omega
    rw [hplaces, List.rtake_concat_succ, List.find?_append, find?_rtake_eq_none hothers]
    simp
  · rename_i hfull
    rw [Nat.sub_eq_zero_of_le (Nat.not_lt.mp hfull), List.rtake_zero]
    rfl

/-- A path that is kept gives its own place away, so that no other one has to make room. -/
theorem entries_insert_of_mem {r : Recent α} (h : r.entries.length ≤ capacity) {path : String}
    (hmem : key path ∈ r.entries.map (·.1)) (value : α) :
    (r.insert path value).entries = r.entries.filter (·.1 ≠ key path) ++ [(key path, value)] := by
  obtain ⟨e, he, hkey⟩ := List.mem_map.mp hmem
  have hless : (r.erase path).entries.length < r.entries.length := by
    refine List.length_filter_lt_length_iff_exists.mpr ⟨e, he, ?_⟩
    simpa using hkey
  unfold insert
  dsimp only
  rw [if_neg (by omega)]
  rfl

/-- However often values are put in, those of the latest different paths are kept, as many as there is room for, in
the order of their latest insertions and as they were put in last.  A value is found until so many other paths
were put in after it, and to put in a path that is kept drops no other one. -/
theorem entries_filled (puts : List (String × α)) :
    (filled puts).entries = (latest (keyed puts)).rtake capacity ∧
    ((filled puts).entries.map (·.1)).Nodup ∧
    (∀ path value later, key path ∉ (keyed later).map (·.1) →
      (((filled puts).insert path value).insertAll later).get? path =
        if ((keyed later).map (·.1)).dedup.length < capacity then some value else none) ∧
    ∀ path value, key path ∈ (filled puts).entries.map (·.1) →
      ((filled puts).insert path value).entries =
        (filled puts).entries.filter (·.1 ≠ key path) ++ [(key path, value)] := by
  have hempty : ({} : Recent α).entries = (latest []).rtake capacity := (List.rtake_nil capacity).symm
  have hentries : (filled puts).entries = (latest (keyed puts)).rtake capacity := entries_insertAll hempty puts
  refine ⟨hentries, ?_, ?_, ?_⟩
  · rw [hentries]
    exact (nodup_latest (keyed puts)).sublist ((List.drop_sublist _ _).map _)
  · intro path value later hlater
    have hafter := entries_insertAll (entries_insert hentries path value) later
    rw [List.append_assoc, List.singleton_append] at hafter
    exact get?_of_entries hafter hlater
  · intro path value hmem
    refine entries_insert_of_mem ?_ hmem value
    rw [hentries, List.rtake, List.length_drop]
    omega

/-! ### A full memory -/

/-- Insertions of numbers, each under the path that is written like it. -/
def numbered (ns : List Nat) : List (String × Nat) := ns.map fun n => (toString n, n)

theorem key_toString (n : Nat) : key (toString n) = ⟨[], [(toString n).toList]⟩ := by
  have hdigits : ∀ c ∈ (toString n).toList, c.isDigit = true := fun _ => Text.isDigit_of_mem_toString
  have hslash : '/' ∉ (toString n).toList := fun h => absurd (hdigits _ h) (by decide)
  have hdot : (toString n).toList ≠ ['.'] := fun h => absurd (hdigits '.' (h ▸ List.mem_cons_self)) (by decide)
  have hvoid : isVoid (toString n).toList = false := by
    rw [isVoid, decide_eq_false (Text.toList_toString_ne_nil n), decide_eq_false hdot, Bool.or_self]
  rw [← key_of_name hslash hvoid, String.ofList_toList]

theorem map_fst_keyed_numbered (ns : List Nat) :
    (keyed (numbered ns)).map (·.1) = ns.map fun n => key (toString n) := by
  rw [keyed, numbered, List.map_map, List.map_map]
  rfl

theorem nodup_numbered {ns : List Nat} (h : ns.Nodup) : ((keyed (numbered ns)).map (·.1)).Nodup := by
  rw [map_fst_keyed_numbered]
  refine h.map fun n k hsame => Text.eq_of_toString_eq (String.toList_injective ?_)
  rw [key_toString, key_toString] at hsame
  exact (List.cons.inj (Key.mk.inj hsame).2).1

/-- If the oldest path is put in again, its first value is replaced and no other. -/
theorem latest_numbered_again {n : Nat} {ns again : List Nat} {puts : List (String × Nat)}
    (hputs : (keyed puts).map (·.1) = again.map fun n => key (toString n)) (hn : n ∈ again)
    (h : (ns ++ again).Nodup) : latest (keyed (numbered (n :: ns) ++ puts)) = keyed (numbered ns ++ puts) := by
  have hkeys : (keyed (numbered ns ++ puts)).map (·.1) = (keyed (numbered (ns ++ again))).map (·.1) := by
    rw [map_fst_keyed_numbered, List.map_append, ← map_fst_keyed_numbered, ← hputs, keyed, keyed, keyed,
      List.map_append, List.map_append]
  have hagain : key (toString n) ∈ (keyed (numbered ns ++ puts)).map (·.1) := by
    rw [hkeys, map_fst_keyed_numbered]
    exact List.mem_map_of_mem (List.mem_append_right ns hn)
  have hnodup : ((keyed (numbered ns ++ puts)).map (·.1)).Nodup := by
    rw [hkeys]
    exact nodup_numbered h
  exact (if_pos hagain).trans (latest_of_nodup hnodup)

theorem length_keyed_numbered (ns : List Nat) (puts : List (String × Nat)) :
    (keyed (numbered ns ++ puts)).length = ns.length + puts.length := by
  rw [keyed, numbered, List.length_map, List.length_append, List.length_map]

/-- With another spelling a path gives its own place away, too.  In a full memory the oldest path can be put in again
and all others stay; it is then the next but oldest one that makes room for a new path. -/
theorem entries_filled_respelled :
    key "/w//a" ∈ (filled [("/w/a", 0), ("/w/b", 1)]).entries.map (·.1) ∧
    ((filled [("/w/a", 0), ("/w/b", 1)]).insert "/w//a" 2).entries = [(key "/w/b", 1), (key "/w/a", 2)] ∧
    key "/w//a" ∉ (keyed [("/w/b", 3)]).map (·.1) ∧
    (((filled [("/w/a", 0), ("/w/b", 1)]).insert "/w//a" 2).insertAll [("/w/b", 3)]).get? "/w//a" = some 2 ∧
    (filled (numbered (List.range 500))).entries = keyed (numbered (List.range 500)) ∧
    (filled (numbered (List.range 500) ++ [("0/", 7)])).entries = keyed (numbered (List.range' 1 499) ++ [("0/", 7)]) ∧
    (filled (numbered (List.range 500) ++ [("0/", 7), ("500", 8)])).entries =
      keyed (numbered (List.range' 2 498) ++ [("0/", 7), ("500", 8)]) := by
  have hmem : key "/w//a" ∈ (filled [("/w/a", 0), ("/w/b", 1)]).entries.map (·.1) := by decide +kernel
  have hlater : key "/w//a" ∉ (keyed [("/w/b", 3)]).map (·.1) := by decide +kernel
  obtain ⟨-, -, hfound, hkept⟩ := entries_filled [("/w/a", 0), ("/w/b", 1)]
  have hfirst : List.range 500 = 0 :: List.range' 1 499 := by rw [List.range_eq_range', List.range'_succ]
  have hsecond : List.range' 1 499 = 1 :: List.range' 2 498 := List.range'_succ
  have hnodup : (List.range' 1 499 ++ [0, 500]).Nodup := by
    refine List.nodup_append.mpr ⟨List.nodup_range', by decide, ?_⟩
    simp only [List.mem_range'_1, List.mem_cons, List.not_mem_nil, or_false]
    omega
  refine ⟨hmem, (hkept "/w//a" 2 hmem).trans (by decide +kernel), hlater,
    (hfound "/w//a" 2 _ hlater).trans (if_pos (by decide +kernel)), ?_, ?_, ?_⟩
  · rw [(entries_filled _).1, latest_of_nodup (nodup_numbered List.nodup_range)]
    refine rtake_of_length_le ?_
    rw [keyed, numbered, List.length_map, List.length_map, List.length_range, capacity]
  · have hkeys : (keyed [("0/", 7)]).map (·.1) = [0].map fun n => key (toString n) := by decide +kernel
    rw [(entries_filled _).1, hfirst, latest_numbered_again hkeys List.mem_cons_self
      (hnodup.sublist (List.Sublist.append_left (by decide) _))]
    refine rtake_of_length_le ?_
    rw [length_keyed_numbered, List.length_range', capacity]
    decide
  · have hkeys : (keyed [("0/", 7), ("500", 8)]).map (·.1) = [0, 500].map fun n => key (toString n) := by
      decide +kernel
    rw [(entries_filled _).1, hfirst, latest_numbered_again hkeys List.mem_cons_self hnodup, List.rtake,
      length_keyed_numbered, List.length_range', hsecond]
    rfl

end Restyle.Recent
