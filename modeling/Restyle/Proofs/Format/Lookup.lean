import Restyle.Proofs.Format.Answer

/-! # Finding the tool again and again

Locators of the tool are cloned and asked while files and programs come and go.  A locator with a path of its
own never searches.  The others remember what the latest search has found, each together with its clones,
for as long as that is a file.
-/
namespace Restyle

/-! ### One call -/

namespace Engine

variable {e : Engine}

theorem searches_toolPath {given : String} (h : e.settings.clangFormatPath = some given) :
    (toolPath.run e).2.host.searches = e.host.searches := by
  have hcustom : (customPath given).run e = (e.host.absolute (Text.trim given), e) := rfl
  unfold toolPath
  rw [Work.run_get_bind, h]
  dsimp only
  rw [Work.run_bind, hcustom, Work.run_get_bind]
  split
  · rfl
  · obtain ⟨err, hdebug⟩ := run_debug s!"Custom clang-format path does not exist: {e.host.absolute (Text.trim given)}" e
    rw [Work.run_bind, hdebug]
    rfl

theorem toolPath_eq_findByName (h : e.settings.clangFormatPath = none) : toolPath.run e = findByName.run e := by
  unfold toolPath
  rw [Work.run_get_bind, h]

/-- A remembered file is the answer, and nothing else happens. -/
theorem findByName_of_isFile {tool : String} (h : e.foundTool.filter e.host.files.isFile = some tool) :
    findByName.run e = (some tool, e) := by
  unfold findByName
  rw [Work.run_get_bind, h]
  rfl

/-- Otherwise one search is made, and what it finds is remembered. -/
theorem findByName_of_gone (h : e.foundTool.filter e.host.files.isFile = none) :
    ∃ err, findByName.run e =
      (e.host.executable? "clang-format", { e.searched with host := { e.searched.host with err } }) := by
  unfold findByName
  rw [Work.run_get_bind, h]
  cases hfound : e.host.executable? "clang-format" with
  | none => exact ⟨e.host.err, by rw [searched, hfound]; rfl⟩
  | some path =>
    obtain ⟨err, hdebug⟩ := run_debug s!"Found clang-format in the PATH: {path}" e.searched
    refine ⟨err, ?_⟩
    rw [searched, hfound] at hdebug ⊢
    exact congrArg (fun r => (some path, r.2)) hdebug

theorem foundTool_findByName (e : Engine) : (findByName.run e).2.foundTool = (findByName.run e).1 := by
  cases hfound : e.foundTool.filter e.host.files.isFile with
  | some tool =>
    rw [findByName_of_isFile hfound]
    exact (Option.filter_eq_some_iff.mp hfound).1
  | none =>
    obtain ⟨err, hrun⟩ := findByName_of_gone hfound
    rw [hrun]
    rfl

end Engine

/-! ### Locators -/

/-- What finds the tool: at a path that was given to it, or by name with a memory that is shared by its clones. -/
structure Locator where
  given : Option String
  memory : Nat
deriving DecidableEq

structure Lookup where
  locator : Locator
  before : Host
  after : Host
  answer : Option String

inductive Occasion where
  | create (given : Option String)
  | clone (number : Nat)
  | ask (number : Nat)
  | change (f : Host → Host)

structure Locators where
  host : Host
  all : List Locator := []
  memories : List (Option String) := []
  lookups : List Lookup := []

/-- What the latest call of a locator or of one of its clones has found. -/
def latest (lookups : List Lookup) (l : Locator) : Option String :=
  (lookups.filter (·.locator = l)).getLast?.bind (·.answer)

structure Lookup.Right (earlier : List Lookup) (k : Lookup) : Prop where
  /-- A given path is the only candidate, and there is no search. -/
  custom : ∀ given, k.locator.given = some given → k.after.searches = k.before.searches ∧
    ∀ tool, k.answer = some tool ↔ k.before.absolute (Text.trim given) = tool ∧ k.before.files.isFile tool
  /-- What was found last is the answer as long as it is a file. -/
  remembered : k.locator.given = none → ∀ tool, latest earlier k.locator = some tool →
    k.before.files.isFile tool → k.after.searches = k.before.searches ∧ k.answer = some tool
  /-- In all other calls there is one search, whose result is the answer. -/
  searched : k.locator.given = none →
    (∀ tool, latest earlier k.locator = some tool → k.before.files.isFile tool = false) →
      k.after.searches = k.before.searches + 1 ∧ k.answer = k.before.executable? "clang-format"

namespace Locators

def remembered (s : Locators) (l : Locator) : Option String := (s.memories[l.memory]?).join

def seenBy (s : Locators) (l : Locator) : Engine :=
  { host := s.host, settings := { clangFormatPath := l.given }, foundTool := s.remembered l }

def ask (s : Locators) (l : Locator) : Locators :=
  let (answer, e) := Engine.toolPath.run (s.seenBy l)
  { s with
    host := e.host
    memories := s.memories.set l.memory e.foundTool
    lookups := s.lookups ++ [⟨l, s.host, e.host, answer⟩] }

def step (s : Locators) : Occasion → Locators
  | .create given => { s with all := s.all ++ [⟨given, s.memories.length⟩], memories := s.memories ++ [none] }
  | .clone number => { s with all := s.all ++ s.all[number]?.toList }
  | .ask number => s.all[number]?.elim s s.ask
  -- Searches are counted where they are made.
  | .change f => { s with host := { f s.host with searches := s.host.searches } }

def run (s : Locators) (occasions : List Occasion) : Locators := occasions.foldl step s

structure Sound (s : Locators) : Prop where
  placed : ∀ l ∈ s.all, l.memory < s.memories.length
  shared : ∀ l ∈ s.all, ∀ l' ∈ s.all, l.memory = l'.memory → l = l'
  owned : ∀ k ∈ s.lookups, k.locator ∈ s.all
  remembers : ∀ l ∈ s.all, l.given = none → s.remembered l = latest s.lookups l
  right : ∀ earlier k later, s.lookups = earlier ++ k :: later → k.Right earlier

variable {s : Locators}

def lookup (s : Locators) (l : Locator) : Lookup :=
  ⟨l, s.host, (Engine.toolPath.run (s.seenBy l)).2.host, (Engine.toolPath.run (s.seenBy l)).1⟩

theorem Sound.lookup_right (h : s.Sound) {l : Locator} (hl : l ∈ s.all) : (s.lookup l).Right s.lookups where
  custom given hgiven := by
    have hgiven : (s.seenBy l).settings.clangFormatPath = some given := hgiven
    refine ⟨Engine.searches_toolPath hgiven, fun tool => ?_⟩
    change (Engine.toolPath.run (s.seenBy l)).1 = some tool ↔ _
    rw [Engine.run_toolPath, Engine.located, hgiven]
    dsimp only
    rw [Option.filter_eq_some_iff, Option.some_inj]
    exact Iff.rfl
  remembered hname tool hlatest hfile := by
    have hfound : (s.seenBy l).foundTool.filter (s.seenBy l).host.files.isFile = some tool :=
      Option.filter_eq_some_iff.mpr ⟨(h.remembers l hl hname).trans hlatest, hfile⟩
    have hrun := (Engine.toolPath_eq_findByName (e := s.seenBy l) hname).trans (Engine.findByName_of_isFile hfound)
    rw [lookup, hrun]
    exact ⟨rfl, rfl⟩
  searched hname hgone := by
    have hfound : (s.seenBy l).foundTool.filter (s.seenBy l).host.files.isFile = none := by
      refine Option.filter_eq_none_iff.mpr fun tool htool => ?_
      have hlatest : latest s.lookups l = some tool := (h.remembers l hl hname).symm.trans htool
      exact Bool.eq_false_iff.mp (hgone tool hlatest)
    obtain ⟨err, hfind⟩ := Engine.findByName_of_gone hfound
    have hrun := (Engine.toolPath_eq_findByName (e := s.seenBy l) hname).trans hfind
    rw [lookup, hrun]
    exact ⟨rfl, rfl⟩

/-! ### Runs -/

theorem latest_append (lookups : List Lookup) (k : Lookup) (l : Locator) :
    latest (lookups ++ [k]) l = if k.locator = l then k.answer else latest lookups l := by
  unfold latest
  split
  · rename_i hsame
    have hone : [k].filter (·.locator = l) = [k] := List.filter_cons_of_pos (decide_eq_true hsame)
    rw [List.filter_append, hone, List.getLast?_concat]
    rfl
  · rename_i hother
    have hzero : [k].filter (·.locator = l) = [] := List.filter_cons_of_neg (by simpa using hother)
    rw [List.filter_append, hzero, List.append_nil]

theorem latest_eq_none {lookups : List Lookup} {l : Locator} (h : ∀ k ∈ lookups, k.locator ≠ l) :
    latest lookups l = none := by
  have hnone : lookups.filter (·.locator = l) = [] :=
    List.filter_eq_nil_iff.mpr fun k hk hsame => h k hk (of_decide_eq_true hsame)
  rw [latest, hnone]
  rfl

theorem Sound.ask (h : s.Sound) {l : Locator} (hl : l ∈ s.all) : (s.ask l).Sound where
  placed l' hl' := by
    change l'.memory < (s.memories.set l.memory _).length
    rw [List.length_set]
    exact h.placed l' hl'
  shared := h.shared
  owned k hk := by
    rcases List.mem_append.mp hk with hold | hnew
    · exact h.owned k hold
    · rw [List.mem_singleton.mp hnew]
      exact hl
  remembers l' hl' hname := by
    have hlatest : latest (s.ask l).lookups l' = if l = l' then (s.lookup l).answer else latest s.lookups l' :=
      latest_append s.lookups (s.lookup l) l'
    rw [hlatest]
    change ((s.memories.set l.memory (Engine.toolPath.run (s.seenBy l)).2.foundTool)[l'.memory]?).join = _
    split
    · rename_i hsame
      subst hsame
      rw [List.getElem?_set_self (h.placed l hl), lookup, Engine.toolPath_eq_findByName (e := s.seenBy l) hname]
      exact Engine.foundTool_findByName _
    · rename_i hother
      rw [List.getElem?_set_ne fun hmemory => hother (h.shared l hl l' hl' hmemory)]
      exact h.remembers l' hl' hname
  right earlier k later hsplit := by
    have hsplit : s.lookups ++ [s.lookup l] = earlier ++ k :: later := hsplit
    rcases List.eq_nil_or_concat later with rfl | ⟨init, last, rfl⟩
    · obtain ⟨rfl, hk⟩ := List.append_inj' hsplit rfl
      cases hk
      exact h.lookup_right hl
    · rw [List.concat_eq_append, ← List.cons_append, ← List.append_assoc] at hsplit
      exact h.right earlier k init (List.append_inj' hsplit rfl).1

theorem Sound.create (h : s.Sound) (given : Option String) : (s.step (.create given)).Sound := by
  have hcases : ∀ l ∈ (s.step (.create given)).all, l ∈ s.all ∨ l = ⟨given, s.memories.length⟩ := by
    intro l hl
    exact (List.mem_append.mp hl).imp_right List.mem_singleton.mp
  refine ⟨?_, ?_, fun k hk => List.mem_append_left _ (h.owned k hk), ?_, h.right⟩
  · intro l hl
    change l.memory < (s.memories ++ [none]).length
    rw [List.length_append, List.length_singleton]
    rcases hcases l hl with hold | rfl
    · exact Nat.lt_succ_of_lt (h.placed l hold)
    · exact Nat.lt_succ_self _
  · intro l hl l' hl' hmemory
    rcases hcases l hl with hold | rfl <;> rcases hcases l' hl' with hold' | rfl
    · exact h.shared l hold l' hold' hmemory
    · exact absurd hmemory (Nat.ne_of_lt (h.placed l hold))
    · exact absurd hmemory.symm (Nat.ne_of_lt (h.placed l' hold'))
    · rfl
  · intro l hl hname
    change ((s.memories ++ [none])[l.memory]?).join = latest s.lookups l
    rcases hcases l hl with hold | rfl
    · rw [List.getElem?_append_left (h.placed l hold)]
      exact h.remembers l hold hname
    · have hnone : latest s.lookups ⟨given, s.memories.length⟩ = none := by
        refine latest_eq_none fun k hk hsame => ?_
        have hplaced := h.placed k.locator (h.owned k hk)
        rw [hsame] at hplaced
        exact Nat.lt_irrefl _ hplaced
      rw [hnone, List.getElem?_concat_length]
      rfl

theorem Sound.clone (h : s.Sound) (number : Nat) : (s.step (.clone number)).Sound := by
  have hall : ∀ l ∈ (s.step (.clone number)).all, l ∈ s.all := by
    intro l hl
    rcases List.mem_append.mp hl with hold | hnew
    · exact hold
    · exact List.mem_of_getElem? (Option.mem_toList.mp hnew)
  refine ⟨fun l hl => h.placed l (hall l hl), ?_, ?_, fun l hl => h.remembers l (hall l hl), h.right⟩
  · exact fun l hl l' hl' => h.shared l (hall l hl) l' (hall l' hl')
  · exact fun k hk => List.mem_append_left _ (h.owned k hk)

theorem Sound.step (h : s.Sound) (o : Occasion) : (s.step o).Sound := by
  cases o with
  | create given => exact h.create given
  | clone number => exact h.clone number
  | ask number =>
    cases hl : s.all[number]? with
    | none => simpa [Locators.step, hl] using h
    | some l => simpa [Locators.step, hl] using h.ask (List.mem_of_getElem? hl)
  | change f => exact ⟨h.placed, h.shared, h.owned, h.remembers, h.right⟩

theorem Sound.run (h : s.Sound) (occasions : List Occasion) : (s.run occasions).Sound := by
  induction occasions generalizing s with
  | nil => exact h
  | cons o occasions ih => exact ih (h.step o)

theorem sound_start (h : Host) : Sound { host := h } := by
  refine ⟨fun _ hl => (nomatch hl), fun _ hl => (nomatch hl), fun _ hk => (nomatch hk), fun _ hl => (nomatch hl), ?_⟩
  intro earlier k later hsplit
  cases earlier <;> cases hsplit

/-- Whatever happens, each call of a locator goes as it should after the calls before it, and what was found by
name is remembered by the locator and all of its clones. -/
theorem right_in_run (h : Host) (occasions : List Occasion) :
    let s := ({ host := h } : Locators).run occasions
    (∀ earlier k later, s.lookups = earlier ++ k :: later → k.Right earlier) ∧
      ∀ l ∈ s.all, l.given = none → s.remembered l = latest s.lookups l :=
  have hsound := (sound_start h).run occasions
  ⟨hsound.right, hsound.remembers⟩

-- A clone remembers what was found until the file is gone; then the other program is found, for both.
example :
    (({ host := {} } : Locators).run [.create none, .change (·.addExecutable "clang-format" "/a"), .ask 0, .clone 0,
      .change (·.addExecutable "clang-format" "/b"), .ask 1,
      .change fun h => { h with files := h.files.remove "/a" }, .ask 1, .ask 0]).lookups.map
        (fun k => (k.answer, k.after.searches)) =
      [(some "/a", 1), (some "/a", 1), (some "/b", 2), (some "/b", 2)] := by
  decide +kernel

end Locators
end Restyle
