import Mathlib.Data.List.Perm.Subperm
import Restyle.Proofs.Format.Reason
import Restyle.Proofs.Text.Number

/-! # Hints of one file

What a request for hints answers follows from how the file stands and from the last good hints of that
file.  The memory is shared by all files and makes room for new ones, so it follows the requests for a
file as long as not too many others were served since its last good hints.
-/
namespace Restyle
open Restyle.Path Work

/-! ### What a style tells -/

/-- An option is set to a width: a positive number that fits 32 bits. -/
def Style.SetsWidth (s : Style) (key : String) (n : Nat) : Prop :=
  s.get? key = some (.int n) ∧ 0 < n ∧ n < UInt32.size

/-- Hints say what a style says: its widths, and that there are tabs unless it is silent about them or denies
them. -/
structure Hints.Reflects (hints : Hints) (s : Style) : Prop where
  rightMargin : ∀ n, hints.rightMargin = some n ↔ s.SetsWidth "ColumnLimit" n
  indentSize : ∀ n, hints.indentSize = some n ↔ s.SetsWidth "IndentWidth" n
  tabSize : ∀ n, hints.tabSize = some n ↔ s.SetsWidth "TabWidth" n
  useTab : hints.useTab = false ↔ s.get? "UseTab" = none ∨ s.get? "UseTab" = some (.bool false) ∨
    ∃ t, s.get? "UseTab" = some (.text t) ∧ (lowerAscii t = "false" ∨ lowerAscii t = "never")

namespace Hints

theorem positive?_eq_some_iff {s : Style} {key : String} {n : Nat} :
    positive? s key = some n ↔ s.SetsWidth key n := by
  unfold positive? Style.int? Style.SetsWidth
  cases s.get? key with
  | none => simp
  | some value =>
    cases value with
    | int m =>
      have hsize : (UInt32.size : Int) = 4294967296 := rfl
      simp only [Option.bind_some, Option.ite_none_right_eq_some, Option.some.injEq, StyleValue.int.injEq]
      omega
    | _ => simp

/-- Both words that deny tabs have a letter that no number has. -/
theorem lowerAscii_toString_ne (n : Int) : lowerAscii (toString n) ≠ "false" ∧ lowerAscii (toString n) ≠ "never" := by
  have hletter : 'e' ∉ (lowerAscii (toString n)).toList := by
    rw [lowerAscii, String.toList_ofList]
    intro hmem
    obtain ⟨c, hc, hlower⟩ := List.mem_map.mp hmem
    rcases Text.of_mem_toString_int hc with rfl | hdigit
    · cases hlower
    · rw [Text.toLower_of_isDigit hdigit] at hlower
      rw [hlower] at hdigit
      cases hdigit
  constructor
  · intro heq
    exact hletter (heq ▸ by decide)
  · intro heq
    exact hletter (heq ▸ by decide)

theorem usesTab_eq_false_iff {s : Style} : usesTab s = false ↔
    s.get? "UseTab" = none ∨ s.get? "UseTab" = some (.bool false) ∨
      ∃ t, s.get? "UseTab" = some (.text t) ∧ (lowerAscii t = "false" ∨ lowerAscii t = "never") := by
  unfold usesTab
  cases s.get? "UseTab" with
  | none => simp
  | some value =>
    cases value with
    | bool b => simp
    | int n =>
      have hword := lowerAscii_toString_ne n
      simpa [StyleValue.scalarText?] using hword
    | text t => simp [StyleValue.scalarText?, or_iff_not_imp_left]
    | options entries => simp [StyleValue.scalarText?]
    | items values => simp [StyleValue.scalarText?]

/-- The hints of a style are the only ones that say what it says. -/
theorem reflects_iff {hints : Hints} {s : Style} : hints.Reflects s ↔ hints = ofStyle s := by
  constructor
  · intro h
    obtain ⟨rightMargin, indentSize, tabSize, useTab⟩ := hints
    unfold ofStyle
    congr 1
    · exact Option.ext fun n => (h.rightMargin n).trans positive?_eq_some_iff.symm
    · exact Option.ext fun n => (h.indentSize n).trans positive?_eq_some_iff.symm
    · exact Option.ext fun n => (h.tabSize n).trans positive?_eq_some_iff.symm
    · exact Bool.eq_iff_iff.mpr (by simpa using not_congr (h.useTab.trans usesTab_eq_false_iff.symm))
  · rintro rfl
    exact ⟨fun _ => positive?_eq_some_iff, fun _ => positive?_eq_some_iff, fun _ => positive?_eq_some_iff,
      usesTab_eq_false_iff⟩

end Hints

inductive Standing where
  /-- Its style resolves and applies. -/
  | sound (hints : Hints)
  /-- Its configuration is broken. -/
  | broken
  /-- It is not formatted, or there is no style for another reason. -/
  | refused
deriving Repr, DecidableEq

namespace Standing

def ofStyle (file : String) : Except Failure Style → Standing
  | .ok s => if s.language? = some "Cpp" && !isCppFile file then .refused else .sound (Hints.ofStyle s)
  | .error (.validation _ _) => .broken
  | .error _ => .refused

def next (good? : Option GoodHints) : Standing → Option GoodHints
  | sound h => some ⟨h, 0⟩
  | broken => good?.map fun good => ⟨good.hints, good.failures + 1⟩
  | refused => none

def answer (fallback : Fallback) (good? : Option GoodHints) : Standing → Option Hints
  | sound h => some h
  | broken => good?.bind fun good => if fallback.allows (good.failures + 1) then some good.hints else none
  | refused => none

def remember (m : HintMemory) (file : String) : Standing → HintMemory
  | sound h => HintMemory.succeed m file h
  | broken => m.modify file fun good => { good with failures := good.failures + 1 }
  | refused => m.erase file

end Standing

/-! ### One request -/

namespace Engine

def standing (e : Engine) (file : String) (t : Token) : Standing :=
  if e.settings.enabled = false then .refused
  else if isConfigFile file = true then .refused
  else if ((configFiles file).run e).1.isEmpty = true then .refused
  else .ofStyle file ((styleFor file t).run e).1

/-- Whether a file is formatted, as far as that is known without its style. -/
def Eligible (e : Engine) (file : String) : Prop :=
  e.settings.enabled = true ∧ isConfigFile file = false ∧ ((configFiles file).run e).1 ≠ []

variable {file : String} {t : Token} {e : Engine}

theorem standing_of_eligible (h : e.Eligible file) : e.standing file t = .ofStyle file ((styleFor file t).run e).1 := by
  obtain ⟨henabled, hfile, hchain⟩ := h
  unfold standing
  rw [if_neg (by simp [henabled]), if_neg (by simp [hfile]), if_neg (by simpa using hchain)]

theorem eligible_of_standing (h : e.standing file t ≠ .refused) : e.Eligible file := by
  unfold standing at h
  split at h
  · exact absurd rfl h
  rename_i henabled
  split at h
  · exact absurd rfl h
  rename_i hfile
  split at h
  · exact absurd rfl h
  rename_i hchain
  exact ⟨by simpa using henabled, by simpa using hfile, by simpa using hchain⟩

/-- A file is served with what its style says if that resolves and applies, and not otherwise. -/
theorem standing_eq_sound_iff {hints : Hints} : e.standing file t = .sound hints ↔ e.Eligible file ∧
    ∃ style, ((styleFor file t).run e).1 = .ok style ∧ (style.language? = some "Cpp" → isCppFile file = true) ∧
      hints.Reflects style := by
  constructor
  · intro h
    have hserved : e.standing file t ≠ .refused := by
      rw [h]
      exact nofun
    have heligible := eligible_of_standing hserved
    rw [standing_of_eligible heligible] at h
    refine ⟨heligible, ?_⟩
    unfold Standing.ofStyle at h
    split at h
    · rename_i style hstyle
      split at h
      · cases h
      · rename_i hmatch
        refine ⟨style, hstyle, fun hlanguage => ?_, Hints.reflects_iff.mpr (Standing.sound.inj h).symm⟩
        simpa [hlanguage] using hmatch
    · cases h
    · cases h
  · rintro ⟨heligible, style, hstyle, hmatch, hreflects⟩
    have hneg : ¬(decide (style.language? = some "Cpp") && !isCppFile file) = true := by simpa using hmatch
    rw [standing_of_eligible heligible, hstyle, Standing.ofStyle, if_neg hneg, Hints.reflects_iff.mp hreflects]

theorem standing_eq_broken_iff : e.standing file t = .broken ↔ e.Eligible file ∧
    ∃ description position, ((styleFor file t).run e).1 = .error (.validation description position) := by
  constructor
  · intro h
    have hserved : e.standing file t ≠ .refused := by
      rw [h]
      exact nofun
    have heligible := eligible_of_standing hserved
    rw [standing_of_eligible heligible] at h
    refine ⟨heligible, ?_⟩
    unfold Standing.ofStyle at h
    split at h
    · split at h <;> cases h
    · exact ⟨_, _, ‹_›⟩
    · cases h
  · rintro ⟨heligible, description, position, hstyle⟩
    rw [standing_of_eligible heligible, hstyle]
    rfl

theorem acrossRequests_hints : AcrossRequests fun e after => after.hints = e.hints ∧ after.settings = e.settings where
  refl _ := ⟨rfl, rfl⟩
  trans h h' := ⟨h'.1.trans h.1, h'.2.trans h.2⟩
  debug _ _ := ⟨rfl, rfl⟩
  search _ _ := ⟨rfl, rfl⟩
  call _ _ := ⟨rfl, rfl⟩
  agenda _ _ := ⟨rfl, rfl⟩
  chains _ _ := ⟨rfl, rfl⟩
  remember _ _ _ _ := ⟨rfl, rfl⟩

theorem fail_eq (m : HintMemory) (fallback : Fallback) (file : String) : HintMemory.fail m fallback file =
    (Standing.broken.answer fallback (m.get? file), Standing.broken.remember m file) := by
  unfold HintMemory.fail
  cases hget : m.get? file with
  | some good => rfl
  | none =>
    have hsame : m.modify file (fun good => { good with failures := good.failures + 1 }) = m := by
      refine congrArg Recent.mk (Eq.trans (List.map_congr_left fun entry hentry => ?_) (List.map_id _))
      have hne := List.find?_eq_none.mp (Option.map_eq_none_iff.mp hget) entry hentry
      exact if_neg (by simpa using hne)
    exact Prod.ext rfl hsame.symm

theorem hintsFor_of_not_formattable (h : ((isFormattable file true t).run e).1 = false) :
    ((hintsFor file t).run e).1 = none ∧
      ((hintsFor file t).run e).2.hints = ((isFormattable file true t).run e).2.hints.erase file := by
  unfold hintsFor
  rw [Work.run_bind, h]
  exact ⟨rfl, rfl⟩

theorem hintsFor_of_ok {s : Style} (h : ((isFormattable file true t).run e).1 = true)
    (hs : ((styleFor file t).run ((isFormattable file true t).run e).2).1 = .ok s) :
    ((hintsFor file t).run e).1 = some (Hints.ofStyle s) ∧ ((hintsFor file t).run e).2.hints =
      ((styleFor file t).run ((isFormattable file true t).run e).2).2.hints.succeed file (Hints.ofStyle s) := by
  unfold hintsFor
  rw [Work.run_bind, h]
  simp only [Bool.not_true, Bool.false_eq_true, if_false]
  rw [Work.run_bind, hs]
  exact ⟨rfl, rfl⟩

theorem hintsFor_of_validation (description : String) (position : Position)
    (h : ((isFormattable file true t).run e).1 = true)
    (hs : ((styleFor file t).run ((isFormattable file true t).run e).2).1 =
      .error (.validation description position)) :
    let asked := ((styleFor file t).run ((isFormattable file true t).run e).2).2
    ((hintsFor file t).run e).1 = (asked.hints.fail asked.settings.fallback file).1 ∧
      ((hintsFor file t).run e).2.hints = (asked.hints.fail asked.settings.fallback file).2 := by
  unfold hintsFor
  rw [Work.run_bind, h]
  simp only [Bool.not_true, Bool.false_eq_true, if_false]
  rw [Work.run_bind, hs]
  exact ⟨rfl, rfl⟩

/-- What a request for hints answers and remembers follows from how the file stands. -/
theorem run_hintsFor (file : String) (t : Token) (e : Engine) :
    ((hintsFor file t).run e).1 = (e.standing file t).answer e.settings.fallback (e.hints.get? file) ∧
      ((hintsFor file t).run e).2.hints = (e.standing file t).remember e.hints file := by
  have hreason := run_reason? file t e
  have hformattable := run_isFormattable file true t e
  have hkept := acrossRequests_hints.moves_reason? file t e
  have hrefused (hpermits : permits true ((reason? file t).run e).1 = false) :
      ((hintsFor file t).run e).1 = none ∧ ((hintsFor file t).run e).2.hints = e.hints.erase file := by
    have hrun := hintsFor_of_not_formattable (by rw [hformattable]; exact hpermits)
    rwa [hformattable, hkept.1] at hrun
  unfold standing
  split
  · rename_i henabled
    rw [if_pos henabled] at hreason
    exact hrefused (by rw [hreason]; rfl)
  rename_i henabled
  rw [if_neg henabled] at hreason
  split
  · rename_i hfile
    rw [if_pos hfile] at hreason
    exact hrefused (by rw [hreason]; rfl)
  rename_i hfile
  rw [if_neg hfile] at hreason
  split
  · rename_i hchain
    rw [if_pos hchain] at hreason
    exact hrefused (by rw [hreason]; rfl)
  rename_i hchain
  rw [if_neg hchain] at hreason
  -- The second request for the style answers as the first did, unless that was cancelled.
  have hagain := @styleFor_again file t e
  have hsecond := acrossRequests_hints.moves_styleFor file t ((styleFor file t).run e).2
  rw [hreason] at hformattable hkept hrefused
  dsimp only at hformattable hkept hrefused
  rw [hkept.1, hkept.2] at hsecond
  cases hresult : ((styleFor file t).run e).1 with
  | ok s =>
    rw [hresult] at hformattable hrefused hagain
    dsimp only [Standing.ofStyle, Reason.ofStyle] at hformattable hrefused ⊢
    split
    · rename_i hmismatch
      rw [if_pos hmismatch] at hrefused
      exact hrefused rfl
    · rename_i hmatch
      rw [if_neg hmatch] at hformattable
      have hrun := hintsFor_of_ok (s := s) (by rw [hformattable]; rfl) (by rw [hformattable]; exact hagain (by simp) t)
      rw [hformattable] at hrun
      dsimp only at hrun
      rw [hsecond.1] at hrun
      exact hrun
  | error f =>
    rw [hresult] at hformattable hrefused hagain
    cases f with
    | validation description position =>
      have hrun := hintsFor_of_validation description position
        (by rw [hformattable]; rfl) (by rw [hformattable]; exact hagain (by simp) t)
      rw [hformattable] at hrun
      dsimp only at hrun
      rw [hsecond.1, hsecond.2, fail_eq] at hrun
      exact hrun
    | _ => exact hrefused rfl

end Engine

/-! ### The memory of all files -/

abbrev History := List (Key × Standing)

namespace History

def good? (past : History) (file : Key) : Option GoodHints :=
  (past.filter (·.1 = file)).foldl (fun good? request => request.2.next good?) none

def servedSince (past : History) (file : Key) : List Key :=
  past.foldl (fun served request => match request.2 with
    | .sound _ => if request.1 = file then [] else served.insert request.1
    | _ => served) []

variable (past : History) (file : Key)

theorem good?_concat (request : Key × Standing) : good? (past ++ [request]) file =
    if request.1 = file then request.2.next (past.good? file) else past.good? file := by
  unfold good?
  rw [List.filter_append, List.foldl_append]
  by_cases h : request.1 = file
  · simp [h]
  · simp [h]

theorem servedSince_concat_sound (other : Key) (hints : Hints) :
    servedSince (past ++ [(other, .sound hints)]) file =
      if other = file then [] else (past.servedSince file).insert other := by
  simp [servedSince]

theorem servedSince_concat_broken (other : Key) :
    servedSince (past ++ [(other, .broken)]) file = past.servedSince file := by
  simp [servedSince]

theorem servedSince_concat_refused (other : Key) :
    servedSince (past ++ [(other, .refused)]) file = past.servedSince file := by
  simp [servedSince]

/-- A memory follows the requests so far.  Behind the hints of a file stand only files that were served since,
so a file whose hints are gone has made room for many. -/
structure Follows (past : History) (m : HintMemory) : Prop where
  nodup : (m.entries.map (·.1)).Nodup
  good : ∀ entry ∈ m.entries, past.good? entry.1 = some entry.2
  later : m.entries.Pairwise fun entry later => later.1 ∈ past.servedSince entry.1
  gone : ∀ file, (∀ entry ∈ m.entries, entry.1 ≠ file) →
    past.good? file = none ∨ Recent.capacity ≤ (past.servedSince file).length

variable {past} {m : HintMemory}

theorem follows_empty : Follows [] {} :=
  ⟨List.nodup_nil, fun _ h => (List.not_mem_nil h).elim, List.Pairwise.nil, fun _ _ => Or.inl rfl⟩

/-- What the memory holds for a file is what the requests for it left, unless many other files were served since. -/
theorem Follows.get?_eq (h : Follows past m) {path : String}
    (hfew : (past.servedSince (key path)).length < Recent.capacity) : m.get? path = past.good? (key path) := by
  unfold Recent.get?
  cases hfind : m.entries.find? (·.1 = key path) with
  | none =>
    have hnew : ∀ entry ∈ m.entries, entry.1 ≠ key path := by
      intro entry hentry
      simpa using List.find?_eq_none.mp hfind entry hentry
    rcases h.gone (key path) hnew with hnone | hmany
    · exact hnone.symm
    · omega
  | some entry =>
    have hkey : entry.1 = key path := by simpa using List.find?_some hfind
    rw [← hkey]
    exact (h.good entry (List.mem_of_find?_eq_some hfind)).symm

theorem Follows.erase (h : Follows past m) (path : String) :
    Follows (past ++ [(key path, .refused)]) (m.erase path) := by
  have hsub : (m.erase path).entries.Sublist m.entries := List.filter_sublist
  constructor
  · exact h.nodup.sublist (hsub.map _)
  · intro entry hentry
    have hne : entry.1 ≠ key path := by simpa using List.of_mem_filter hentry
    rw [good?_concat, if_neg fun he => hne he.symm]
    exact h.good entry (hsub.subset hentry)
  · simp only [servedSince_concat_refused]
    exact h.later.sublist hsub
  · intro file hnew
    rw [good?_concat, servedSince_concat_refused]
    by_cases hfile : key path = file
    · rw [if_pos hfile]
      exact Or.inl rfl
    · rw [if_neg hfile]
      refine h.gone file fun entry hentry he => ?_
      refine hnew entry (List.mem_filter.mpr ⟨hentry, ?_⟩) he
      simpa [he] using fun hk : file = key path => hfile hk.symm

theorem Follows.fail (h : Follows past m) (path : String) :
    Follows (past ++ [(key path, .broken)]) (Standing.broken.remember m path) := by
  have hkeys : ∀ entry : Key × GoodHints,
      (if entry.1 = key path then (entry.1, { entry.2 with failures := entry.2.failures + 1 }) else entry).1 =
        entry.1 := by
    intro entry
    split <;> rfl
  have hmap : (Standing.broken.remember m path).entries.map (·.1) = m.entries.map (·.1) := by
    rw [Standing.remember, Recent.modify, List.map_map]
    exact List.map_congr_left fun entry _ => hkeys entry
  constructor
  · rw [hmap]
    exact h.nodup
  · intro entry hentry
    obtain ⟨old, hold, rfl⟩ := List.mem_map.mp hentry
    have hgood := h.good old hold
    rw [hkeys, good?_concat, hgood]
    by_cases hfile : old.1 = key path
    · rw [if_pos hfile, if_pos hfile.symm]
      rfl
    · rw [if_neg hfile, if_neg fun he => hfile he.symm]
  · simp only [servedSince_concat_broken]
    refine List.pairwise_map.mpr (h.later.imp fun hlater => ?_)
    rwa [hkeys, hkeys]
  · intro file hnew
    rw [good?_concat, servedSince_concat_broken]
    have hold : ∀ entry ∈ m.entries, entry.1 ≠ file := by
      intro entry hentry
      have hmoved := hnew _ (List.mem_map_of_mem hentry)
      rwa [hkeys] at hmoved
    rcases h.gone file hold with hnone | hmany
    · left
      rw [hnone]
      split <;> rfl
    · exact Or.inr hmany

theorem length_le_served {path : String} {oldest : Key × GoodHints} {rest : List (Key × GoodHints)}
    (hlater : ∀ later ∈ rest, later.1 ∈ past.servedSince oldest.1) (hnodup : (rest.map (·.1)).Nodup)
    (hne : ∀ later ∈ rest, ¬key path = later.1) :
    rest.length + 1 ≤ ((past.servedSince oldest.1).insert (key path)).length := by
  have hserved : key path :: rest.map (·.1) ⊆ (past.servedSince oldest.1).insert (key path) := by
    refine List.cons_subset.mpr ⟨List.mem_insert_self, fun k hk => ?_⟩
    obtain ⟨later, hmem, rfl⟩ := List.mem_map.mp hk
    exact List.mem_insert_of_mem (hlater later hmem)
  have hdistinct : (key path :: rest.map (·.1)).Nodup := by
    refine List.nodup_cons.mpr ⟨fun hk => ?_, hnodup⟩
    obtain ⟨later, hmem, he⟩ := List.mem_map.mp hk
    exact hne later hmem he.symm
  have hlength := (hdistinct.subperm hserved).length_le
  rwa [List.length_cons, List.length_map] at hlength

theorem ne_of_mem_erase {path : String} {entry : Key × GoodHints} (h : entry ∈ (m.erase path).entries) :
    ¬key path = entry.1 := by
  intro he
  have hother := List.of_mem_filter h
  simp [he] at hother

theorem exists_entries_succeed (m : HintMemory) (path : String) (hints : Hints) :
    ∃ kept, (m.succeed path hints).entries = kept ++ [(key path, ⟨hints, 0⟩)] ∧
      kept.Sublist (m.erase path).entries ∧ (kept = (m.erase path).entries ∨
        Recent.capacity ≤ (m.erase path).entries.length ∧ kept = (m.erase path).entries.drop 1) := by
  unfold HintMemory.succeed Recent.insert
  dsimp only
  split
  · rename_i hfull
    exact ⟨_, rfl, List.drop_sublist 1 _, Or.inr ⟨hfull, rfl⟩⟩
  · exact ⟨_, rfl, List.Sublist.refl _, Or.inl rfl⟩

/-- If the hints of a file made room, they were the oldest, and all others were served after them. -/
theorem Follows.capacity_le_served (h : Follows past m) {path : String} {entry : Key × GoodHints}
    (hmem : entry ∈ (m.erase path).entries) (hfull : Recent.capacity ≤ (m.erase path).entries.length)
    (hgone : ∀ other ∈ (m.erase path).entries.drop 1, other.1 ≠ entry.1) :
    Recent.capacity ≤ ((past.servedSince entry.1).insert (key path)).length := by
  have hsub : (m.erase path).entries.Sublist m.entries := List.filter_sublist
  have hne : ∀ entry ∈ (m.erase path).entries, ¬key path = entry.1 := fun _ => ne_of_mem_erase
  have hlater := h.later.sublist hsub
  have hnodup := h.nodup.sublist (hsub.map (·.1))
  generalize (m.erase path).entries = others at *
  cases others with
  | nil => cases hmem
  | cons oldest rest =>
    have holdest : entry = oldest := by
      refine (List.mem_cons.mp hmem).resolve_right fun hrest => ?_
      exact hgone entry hrest rfl
    subst holdest
    refine Nat.le_trans hfull (length_le_served (List.pairwise_cons.mp hlater).1 ?_ ?_)
    · exact (List.nodup_cons.mp hnodup).2
    · exact fun later hmem => hne later (List.mem_cons_of_mem _ hmem)

/-- A memory that is full forgets the oldest hints, which many other files have outlived. -/
theorem Follows.succeed (h : Follows past m) (path : String) (hints : Hints) :
    Follows (past ++ [(key path, .sound hints)]) (m.succeed path hints) := by
  obtain ⟨kept, hentries, hkept, hroom⟩ := exists_entries_succeed m path hints
  have hsub : (m.erase path).entries.Sublist m.entries := List.filter_sublist
  have hne : ∀ entry ∈ (m.erase path).entries, ¬key path = entry.1 := fun _ => ne_of_mem_erase
  constructor
  · rw [hentries, List.map_append, List.nodup_append]
    refine ⟨h.nodup.sublist ((hkept.trans hsub).map _), List.nodup_singleton _, ?_⟩
    intro k hk other hother
    obtain ⟨entry, hentry, rfl⟩ := List.mem_map.mp hk
    rw [List.mem_singleton.mp hother]
    exact fun he => hne entry (hkept.subset hentry) he.symm
  · rw [hentries]
    intro entry hentry
    rw [good?_concat]
    rcases List.mem_append.mp hentry with hentry | hentry
    · rw [if_neg (hne entry (hkept.subset hentry))]
      exact h.good entry ((hkept.trans hsub).subset hentry)
    · obtain rfl := List.mem_singleton.mp hentry
      rw [if_pos rfl]
      rfl
  · rw [hentries]
    refine List.pairwise_append.mpr ⟨?_, List.pairwise_singleton _ _, ?_⟩
    · refine (h.later.sublist (hkept.trans hsub)).imp_of_mem fun hentry _ hlater => ?_
      rw [servedSince_concat_sound, if_neg (hne _ (hkept.subset hentry))]
      exact List.mem_insert_of_mem hlater
    · intro entry hentry new hnew
      rw [List.mem_singleton.mp hnew, servedSince_concat_sound, if_neg (hne entry (hkept.subset hentry))]
      exact List.mem_insert_self
  · rw [hentries]
    intro file hnew
    have hfile : ¬key path = file := hnew _ (List.mem_append_right _ List.mem_cons_self)
    rw [good?_concat, if_neg hfile, servedSince_concat_sound, if_neg hfile]
    by_cases hold : ∀ entry ∈ m.entries, entry.1 ≠ file
    · refine (h.gone file hold).imp_right fun hmany => Nat.le_trans hmany ?_
      exact List.length_le_length_insert
    · right
      push Not at hold
      obtain ⟨entry, hentry, rfl⟩ := hold
      have hmem : entry ∈ (m.erase path).entries := by
        refine List.mem_filter.mpr ⟨hentry, ?_⟩
        simpa using fun he : entry.1 = key path => hfile he.symm
      rcases hroom with rfl | ⟨hfull, rfl⟩
      · exact absurd rfl (hnew entry (List.mem_append_left _ hmem))
      · exact h.capacity_le_served hmem hfull fun other hother => hnew other (List.mem_append_left _ hother)

theorem Follows.remember (h : Follows past m) (path : String) (standing : Standing) :
    Follows (past ++ [(key path, standing)]) (standing.remember m path) := by
  cases standing with
  | sound hints => exact h.succeed path hints
  | broken => exact h.fail path
  | refused => exact h.erase path

end History
end Restyle
