import Restyle.Proofs.File.Lineage
import Restyle.Proofs.Style.Repeat
import Restyle.Proofs.Style.Turns

/-! # What keys of styles tell

Two keys of the same path, one taken some time after the other, are the same exactly if no event about a
configuration file came in between, and the configuration files of the path and the tool are where they were,
with the same stamps.  Nothing else makes them differ, whatever happened meanwhile.
-/
namespace Restyle
open Restyle.Path Work

/-! ### Stamped paths -/

theorem map_graph_eq_iff {keys others : List Key} {stamp later : Key → Option Nat} :
    (keys.map fun k => (k, stamp k)) = (others.map fun k => (k, later k)) ↔
      others = keys ∧ ∀ k ∈ keys, later k = stamp k := by
  constructor
  · intro h
    obtain rfl : keys = others := by simpa [Function.comp_def] using congrArg (List.map Prod.fst) h
    exact ⟨rfl, fun k hk => (Prod.mk.inj (List.map_inj_left.mp h k hk)).2.symm⟩
  · rintro ⟨rfl, h⟩
    exact List.map_congr_left fun k hk => by rw [h k hk]

/-- Paths with their stamps are the same if the paths are and each of them has the same stamp. -/
theorem map_stamped_eq_iff (files later : FileStore) (paths others : List String) :
    (paths.map fun p => (p, files.stamp? p)).map DependencyKey.stamped =
      (others.map fun p => (p, later.stamp? p)).map DependencyKey.stamped ↔
    others.map key = paths.map key ∧ ∀ p ∈ paths, later.stamp? p = files.stamp? p := by
  rw [DependencyKey.map_stamped, DependencyKey.map_stamped, map_graph_eq_iff, List.forall_mem_map]
  simp only [FileStore.stamp?_eq]

/-! ### Chains where every file lies in a directory -/

namespace FileStore

/-- Below what is no directory there are no files. -/
theorem Housed.configKeysIn_eq_nil {files : FileStore} (h : files.Housed) {path : String}
    (hpath : files.isDirectory path = false) : configKeysIn files.has (key path) = [] := by
  refine List.filter_eq_nil_iff.mpr fun k hk hhas => ?_
  obtain ⟨name, hname, rfl⟩ := List.mem_map.mp hk
  rw [has, Key.normal_child _ (configFileNames_plain name hname).2.2] at hhas
  obtain ⟨f, hf⟩ := Option.isSome_iff_exists.mp hhas
  have hplace : f.path = (key path).normal.child name.toList := by simpa using List.find?_some hf
  have habove : f.path.parent? = some (key path).normal := by simp [hplace, Key.child, Key.parent?]
  have hknown := h f (List.mem_of_find?_eq_some hf) _ habove
  rw [isDirectory, key_normalize] at hpath
  exact Bool.false_ne_true (hpath.symm.trans (List.contains_iff_mem.mpr hknown))

/-- So it makes no difference whether a walk starts at a file or above it. -/
theorem Housed.map_key_configWalk {files : FileStore} (h : files.Housed) (path : String) :
    (configWalk files path).map key = walkKeys files.has (key path).ancestors := by
  rw [Restyle.map_key_configWalk, Key.ancestors_eq, Key.upward_parent?]
  split_ifs with hdirectory
  · rfl
  · have hnone := h.configKeysIn_eq_nil (Bool.eq_false_iff.mpr hdirectory)
    rw [walkKeys, walkKeys, List.flatMap_cons, hnone, List.nil_append]

end FileStore

namespace Happening

def concerns : Happening → Bool
  | .events batch => !(StyleMemory.concerning batch).isEmpty
  | _ => false

end Happening

namespace Engine

variable {e first last after : Engine} {path : String}

/-! ### When keys are the same -/

def chain (e : Engine) (path : String) : List String := ((configFiles path).run e).1

theorem keyNow_same_iff : (first.keyNow path).same (last.keyNow path) = true ↔
    (last.chain path).map key = (first.chain path).map key ∧ last.located.map key = first.located.map key ∧
    (∀ p ∈ first.chain path ++ first.located.toList, last.host.files.stamp? p = first.host.files.stamp? p) ∧
    last.styles.generation = first.styles.generation := by
  have hchain := map_stamped_eq_iff first.host.files last.host.files (first.chain path) (last.chain path)
  have hlocated := map_stamped_eq_iff first.host.files last.host.files first.located.toList last.located.toList
  have htool (a b : Option (Key × Option Nat)) : a.toList = b.toList ↔ a = b := by cases a <;> cases b <;> simp
  have hkeys (a b : Option Key) : a.toList = b.toList ↔ a = b := by cases a <;> cases b <;> simp
  simp only [← Option.toList_map, htool, hkeys] at hlocated
  rw [DependencyKey.same_iff, List.forall_mem_append]
  refine (and_congr hchain (and_congr hlocated eq_comm)).trans ?_
  tauto

/-! ### How often events came in -/

theorem basis_ask (q : Query) (e : Engine) : (q.ask e).basis = e.basis := by
  cases q with
  | configFiles path => rfl
  | isConfigured path => rfl
  | styleFile path => rfl
  | dependencyKey path => exact acrossRequests_basis.moves_dependencyKey path e
  | styleFor path token => exact acrossRequests_basis.moves_styleFor path token e

theorem generation_happen (e : Engine) (x : Happening) :
    (e.happen x).styles.generation = e.styles.generation + if x.concerns then 1 else 0 := by
  cases x with
  | query q => exact congrArg (·.2.2) (basis_ask q e)
  | change host => rfl
  | events batch =>
    obtain ⟨err, hrun⟩ := run_handleEvents batch e
    simp only [happen, hrun, StyleMemory.afterEvents, Happening.concerns]
    split <;> rename_i hempty <;> simp [hempty]

/-- Events about other files change nothing. -/
theorem happen_of_concerns_eq_false (e : Engine) {batch : List FileEvent}
    (h : (Happening.events batch).concerns = false) : e.happen (.events batch) = e := by
  have hnone : StyleMemory.concerning batch = [] := by simpa [Happening.concerns] using h
  have hchanged : StyleMemory.chainsChanged batch = false := by simp [StyleMemory.chainsChanged, hnone]
  simp only [happen, handleEvents, hchanged]
  have hstyles : e.styles.afterEvents batch = e.styles := by simp [StyleMemory.afterEvents, hnone, hchanged]
  exact congrArg (fun styles => { e with styles }) hstyles

theorem generation_turns (e : Engine) (xs : List Turn) :
    (e.turns xs).styles.generation = e.styles.generation + xs.countP (·.happening.concerns) := by
  induction xs generalizing e with
  | nil => rfl
  | cons x xs ih =>
    have hturn : (e.turn x).styles.generation = _ :=
      generation_happen { e with desk := x.desk, agenda := x.agenda } x.happening
    have hrest := ih (e.turn x)
    rw [List.countP_cons, turns, List.foldl_cons]
    rw [turns, hturn] at hrest
    rw [hrest]
    dsimp only
    omega

/-! ### Stores in the course of a run -/

def storesIn (xs : List Turn) : List FileStore := xs.filterMap fun x => x.happening.host?.map (·.files)

theorem files_happen (e : Engine) (x : Happening) :
    (e.happen x).host.files = (x.host?.map (·.files)).getD e.host.files := by
  cases x with
  | query q => exact q.files_ask e
  | change host => rfl
  | events batch => exact files_events e batch

theorem files_turns (e : Engine) (xs : List Turn) :
    (e.turns xs).host.files = (storesIn xs).getLastD e.host.files := by
  induction xs generalizing e with
  | nil => rfl
  | cons x xs ih =>
    have hturn : (e.turn x).host.files = _ := files_happen { e with desk := x.desk, agenda := x.agenda } x.happening
    have hrest := ih (e.turn x)
    rw [hturn] at hrest
    rw [storesIn, List.filterMap_cons]
    cases hstore : x.happening.host?.map (·.files) with
    | none =>
      rw [hstore] at hrest
      exact hrest
    | some files =>
      rw [hstore] at hrest
      exact hrest.trans (List.getLastD_cons ..).symm

/-! ### Runs that leave a key alone -/

/-- Whether a host has what a key was made from as it was: the configuration files, the tool, where the tool is
found by name, and the working directory. -/
structure Spared (first : Engine) (host : Host) : Prop where
  configs : ∀ k, NamesConfig k → host.files.find? k = first.host.files.find? k
  tool : ∀ p ∈ first.located, host.files.get? p = first.host.files.get? p
  executable : host.executable? "clang-format" = first.host.executable? "clang-format"
  directory : host.directory = first.host.directory
  housed : host.files.Housed

/-- An engine for which the key of a path is still what it was, up to the tool that a setting names. -/
structure Undisturbed (first e : Engine) : Prop where
  settings : e.settings = first.settings
  spared : first.Spared e.host
  generation : e.styles.generation = first.styles.generation
  found : e.settings.clangFormatPath = none → e.foundTool = first.located
  sound : e.styles.chains.Sound e.host.files.has

theorem find?_child {files other : FileStore} (h : ∀ k, NamesConfig k → files.find? k = other.find? k)
    (directory : Key) {name : String} (hname : name ∈ configFileNames) :
    files.find? (directory.child name.toList).normal = other.find? (directory.child name.toList).normal := by
  rw [directory.normal_child (configFileNames_plain name hname).2.2]
  exact h _ ⟨name, hname, List.getLast?_concat⟩

theorem Spared.located_eq (h : first.Spared e.host) (hname : e.settings.clangFormatPath = none)
    (hsettings : e.settings = first.settings) (hfound : e.foundTool = first.located) : e.located = first.located := by
  have hfirst : first.located = (first.foundTool.filter first.host.files.isFile).or
      (first.host.executable? "clang-format") := by rw [located, ← hsettings, hname]
  have hnow : e.located = (first.located.filter e.host.files.isFile).or (first.host.executable? "clang-format") := by
    rw [located, hname, ← h.executable, ← hfound]
  cases hlocated : first.located with
  | none =>
    have hnowhere := (Option.or_eq_none_iff.mp (hfirst.symm.trans hlocated)).2
    rw [hnow, hlocated, hnowhere]
    rfl
  | some p =>
    have hfile : e.host.files.isFile p = first.host.files.isFile p := congrArg Option.isSome (h.tool p hlocated)
    rw [hnow, hlocated]
    refine Option.or_eq_some_iff.mpr ?_
    rcases Option.or_eq_some_iff.mp (hfirst.symm.trans hlocated) with hthere | ⟨-, hexecutable⟩
    · have hisFile := hfile.trans (Option.filter_eq_some_iff.mp hthere).2
      exact .inl (Option.filter_eq_some_iff.mpr ⟨rfl, hisFile⟩)
    · cases hisFile : e.host.files.isFile p with
      | true => exact .inl (Option.filter_eq_some_iff.mpr ⟨rfl, hisFile⟩)
      | false => exact .inr ⟨by simp [hisFile], hexecutable⟩

def HasFound (e : Engine) : Prop := e.settings.clangFormatPath = none → e.foundTool = e.located

theorem hasFound_searched (h : e.foundTool.filter e.host.files.isFile = none) : e.searched.HasFound := by
  intro hname
  have hname : e.settings.clangFormatPath = none := hname
  rw [located_searched h, located, hname]
  dsimp only
  rw [h]
  rfl

theorem acrossRequests_hasFound : AcrossRequests fun e after => e.HasFound → after.HasFound where
  refl _ h := h
  trans h h' he := h' (h he)
  debug e line h := by
    obtain ⟨err, hdebug⟩ := e.host.debug_eq line
    rw [hdebug]
    exact h
  search _ hnone _ := hasFound_searched hnone
  call _ _ h := h
  agenda _ _ h := h
  chains _ _ h := h
  remember _ _ _ _ h := h

theorem hasFound_ask (q : Query) (h : e.HasFound) : (q.ask e).HasFound := by
  cases q with
  | configFiles path => exact h
  | isConfigured path => exact h
  | styleFile path => exact h
  | dependencyKey path => exact acrossRequests_hasFound.moves_dependencyKey path e h
  | styleFor path token => exact acrossRequests_hasFound.moves_styleFor path token e h

theorem hasFound_findByName (e : Engine) : (findByName.run e).2.HasFound := by
  unfold findByName
  rw [Work.run_bind]
  dsimp only
  split
  · rename_i found hfound
    have hfound : e.foundTool.filter e.host.files.isFile = some found := hfound
    intro hname
    have hname : e.settings.clangFormatPath = none := hname
    change e.foundTool = e.located
    rw [located, hname, (Option.filter_eq_some_iff.mp hfound).1]
    rw [(Option.filter_eq_some_iff.mp hfound).1] at hfound
    simp [hfound]
  · rename_i hnone
    rw [Work.run_bind]
    have hsearched := hasFound_searched hnone
    split
    · exact acrossRequests_hasFound.debug e.searched _ hsearched
    · exact hsearched

theorem hasFound_toolPath (e : Engine) : (toolPath.run e).2.HasFound := by
  intro hname
  have hname' : e.settings.clangFormatPath = none := (acrossRequests_progress.moves_toolPath e).settings ▸ hname
  have hrun : toolPath.run e = findByName.run e := by
    unfold toolPath
    rw [Work.run_bind]
    split
    · rfl
    · rename_i given hgiven
      have hgiven : e.settings.clangFormatPath = some given := hgiven
      cases hname'.symm.trans hgiven
  rw [hrun] at hname ⊢
  exact hasFound_findByName e hname

theorem hasFound_dependencyKey (path : String) (e : Engine) : ((dependencyKey path).run e).2.HasFound :=
  hasFound_toolPath ((configFiles path).run e).2

theorem Undisturbed.hasFound (h : first.Undisturbed e) : e.HasFound := fun hname =>
  (h.found hname).trans (h.spared.located_eq hname h.settings (h.found hname)).symm

theorem Undisturbed.query (h : first.Undisturbed e) (q : Query) : first.Undisturbed (q.ask e) := by
  have hprogress := progress_ask q e
  have hfound := hasFound_ask q h.hasFound
  have hbasis : (q.ask e).located = e.located := congrArg (·.2.1) (basis_ask q e)
  have hspared : first.Spared (q.ask e).host := by
    refine ⟨?_, ?_, ?_, hprogress.directory.trans h.spared.directory, ?_⟩ <;>
      simp only [Host.executable?, hprogress.files, hprogress.executables]
    · exact h.spared.configs
    · exact h.spared.tool
    · exact h.spared.executable
    · exact h.spared.housed
  refine ⟨hprogress.settings.trans h.settings, hspared, ?_, fun hname => ?_, ?_⟩
  · exact (congrArg (·.2.2) (basis_ask q e)).trans h.generation
  · have hname' : e.settings.clangFormatPath = none := hprogress.settings ▸ hname
    rw [hfound hname, hbasis, h.spared.located_eq hname' h.settings (h.found hname')]
  · rw [q.chains_ask, q.files_ask]
    exact (h.sound.configFiles q.path).2

/-- Whatever happens leaves the key alone, as long as the host does and no event is about a configuration file. -/
theorem Undisturbed.happen (h : first.Undisturbed e) {x : Happening} (hx : x.concerns = false)
    (hhost : ∀ host ∈ x.host?, first.Spared host) : first.Undisturbed (e.happen x) := by
  cases x with
  | query q => exact h.query q
  | change host =>
    have hspared := hhost host rfl
    refine ⟨h.settings, hspared, h.generation, h.found, h.sound.of_has_eq fun directory name hname => ?_⟩
    have hfind := find?_child (fun k hk => (h.spared.configs k hk).trans (hspared.configs k hk).symm) directory hname
    exact congrArg Option.isSome hfind
  | events batch =>
    rw [happen_of_concerns_eq_false e hx]
    exact h

theorem Undisturbed.turns (h : first.Undisturbed e) {xs : List Turn}
    (hquiet : ∀ x ∈ xs, x.happening.concerns = false)
    (hhosts : ∀ x ∈ xs, ∀ host ∈ x.happening.host?, first.Spared host) : first.Undisturbed (e.turns xs) := by
  induction xs generalizing e with
  | nil => exact h
  | cons x xs ih =>
    have hset : first.Undisturbed { e with desk := x.desk, agenda := x.agenda } :=
      ⟨h.settings, h.spared, h.generation, h.found, h.sound⟩
    have hturn : first.Undisturbed (e.turn x) :=
      hset.happen (hquiet x List.mem_cons_self) (hhosts x List.mem_cons_self)
    refine ih hturn ?_ ?_
    · exact fun y hy => hquiet y (List.mem_cons_of_mem x hy)
    · exact fun y hy => hhosts y (List.mem_cons_of_mem x hy)

/-! ### Keys in the course of a run -/

theorem sound_turns {base : FileStore} {heard : List FileEvent} {xs : List Turn} {q : Query}
    (hf : e.styles.chains.Faithful base heard)
    (ha : AnnouncedFrom base e.host.files heard (xs.map (·.happening) ++ [.query q])) :
    (e.turns xs).styles.chains.Sound (e.turns xs).host.files.has := by
  induction xs generalizing e base heard with
  | nil => exact hf.sound_of_announced ha.1
  | cons x xs ih =>
    have hset : ({ e with desk := x.desk, agenda := x.agenda } : Engine).styles.chains.Faithful base heard := hf
    obtain ⟨base', heard', hnext, hannounced⟩ := faithful_happen hset ha
    exact ih hnext hannounced

theorem undisturbed_dependencyKey (hsound : first.styles.chains.Sound first.host.files.has)
    (hhoused : first.host.files.Housed) (path : String) :
    first.Undisturbed ((dependencyKey path).run first).2 := by
  have hprogress := acrossRequests_progress.moves_dependencyKey path first
  have hbasis := acrossRequests_basis.moves_dependencyKey path first
  have hspared : first.Spared ((dependencyKey path).run first).2.host := by
    refine ⟨?_, ?_, ?_, hprogress.directory, ?_⟩ <;>
      simp [Host.executable?, hprogress.files, hprogress.executables, hhoused]
  refine ⟨hprogress.settings, hspared, congrArg (·.2.2) hbasis, fun hname => ?_, ?_⟩
  · exact (hasFound_dependencyKey path first hname).trans (congrArg (·.2.1) hbasis)
  · have hchains := Query.chains_ask (.dependencyKey path) first
    have hfiles := Query.files_ask (.dependencyKey path) first
    rw [Query.ask] at hchains hfiles
    rw [hchains, hfiles]
    exact (hsound.configFiles path).2

/-- The files of a chain are configuration files in the directories above the path. -/
theorem exists_child_of_mem_chain (hsound : e.styles.chains.Sound e.host.files.has) (hhoused : e.host.files.Housed)
    {p : String} (hp : p ∈ e.chain path) :
    ∃ directory : Key, ∃ name ∈ configFileNames, key p = directory.child name.toList := by
  have hkeys : (e.chain path).map key = walkKeys e.host.files.has (key path).ancestors :=
    (hsound.configFiles path).1.trans (hhoused.map_key_configWalk path)
  have hmem : key p ∈ walkKeys e.host.files.has (key path).ancestors := hkeys ▸ List.mem_map_of_mem hp
  obtain ⟨directory, -, hchild⟩ := List.mem_flatMap.mp hmem
  obtain ⟨name, hname, heq⟩ := List.mem_map.mp (List.mem_filter.mp hchild).1
  exact ⟨directory, name, hname, heq.symm⟩

theorem Undisturbed.located_eq (h : first.Undisturbed last)
    (htool : ∀ p ∈ last.located, last.host.files.get? p = first.host.files.get? p) :
    last.located = first.located := by
  cases hsettings : last.settings.clangFormatPath with
  | none => exact h.spared.located_eq hsettings h.settings (h.found hsettings)
  | some given =>
    have habsolute : last.host.absolute = first.host.absolute := by
      unfold Host.absolute
      rw [h.spared.directory]
    have hfirst : first.located = (some (first.host.absolute (Text.trim given))).filter first.host.files.isFile := by
      rw [located, ← h.settings, hsettings]
    have hlast : last.located = (some (first.host.absolute (Text.trim given))).filter last.host.files.isFile := by
      rw [located, hsettings, habsolute]
    generalize first.host.absolute (Text.trim given) = place at hfirst hlast
    have hspared := h.spared.tool
    rw [hfirst] at hspared
    rw [hlast] at htool
    rw [hfirst, hlast]
    -- The place has a file at both times or at neither, whichever of the two finds the tool there.
    have hisFile : last.host.files.isFile place = first.host.files.isFile place := by
      cases hlater : last.host.files.isFile place with
      | true => exact hlater.symm.trans (congrArg Option.isSome (htool place (by simp [hlater])))
      | false =>
        cases hearlier : first.host.files.isFile place with
        | true =>
          have hkept := congrArg Option.isSome (hspared place (by simp [hearlier]))
          exact hlater.symm.trans (hkept.trans hearlier)
        | false => rfl
    rw [Option.filter_some, Option.filter_some, hisFile]

theorem Undisturbed.keyNow_same (h : first.Undisturbed last)
    (hsound : first.styles.chains.Sound first.host.files.has) (hhoused : first.host.files.Housed)
    (htool : ∀ p ∈ last.located, last.host.files.get? p = first.host.files.get? p) (path : String) :
    (first.keyNow path).same (last.keyNow path) = true := by
  have hconfigs := h.spared.configs
  refine keyNow_same_iff.mpr ⟨?_, ?_, ?_, h.generation⟩
  · have hfirst : (first.chain path).map key = _ :=
      (hsound.configFiles path).1.trans (hhoused.map_key_configWalk path)
    have hlast : (last.chain path).map key = _ :=
      (h.sound.configFiles path).1.trans (h.spared.housed.map_key_configWalk path)
    rw [hfirst, hlast]
    exact walkKeys_congr (fun directory name hname => congrArg Option.isSome (find?_child hconfigs directory hname)) _
  · rw [h.located_eq htool]
  · intro p hp
    rcases List.mem_append.mp hp with hchain | hlocated
    · obtain ⟨directory, name, hname, hkey⟩ := exists_child_of_mem_chain hsound hhoused hchain
      have hfind := find?_child hconfigs directory hname
      rw [FileStore.stamp?_eq, FileStore.stamp?_eq, hkey]
      exact congrArg (Option.map (·.stamp)) hfind
    · exact congrArg (Option.map (·.stamp)) (h.spared.tool p (Option.mem_toList.mp hlocated))

/-- Two keys of a path that are the same tell that no event about a configuration file came in between, that the
chain and the tool are the same files with the same stamps, and so, where no stamp is given twice, that none of
them was touched.  If a run announces its changes and then leaves the configuration files and the tool alone, the
keys are the same exactly if no event about a configuration file comes in. -/
theorem dependencyKey_same_turns (e : Engine) (ys xs : List Turn) (path : String) :
    let first := e.turns ys
    let found := (dependencyKey path).run first
    let last := found.2.turns xs
    let later := (dependencyKey path).run last
    (found.1.same later.1 = true →
      (∀ x ∈ xs, x.happening.concerns = false) ∧
      (last.chain path).map key = (first.chain path).map key ∧ last.located.map key = first.located.map key ∧
      ∀ p ∈ first.chain path ++ first.located.toList,
        last.host.files.stamp? p = first.host.files.stamp? p ∧
        (first.host.files.isFile p = true → FileStore.NeverReused [first.host.files] (storesIn xs) →
          ∀ files ∈ storesIn xs, files.get? p = first.host.files.get? p)) ∧
    (e.styles.chains = {} →
      AnnouncedFrom e.host.files e.host.files [] (ys.map (·.happening) ++ [.query (.dependencyKey path)]) →
      first.host.files.Housed → (∀ x ∈ xs, ∀ host ∈ x.happening.host?, first.Spared host) →
      (∀ p ∈ last.located, last.host.files.get? p = first.host.files.get? p) →
      (found.1.same later.1 = true ↔ ∀ x ∈ xs, x.happening.concerns = false)) := by
  dsimp only
  generalize hfirst : e.turns ys = first
  generalize hlast : ((dependencyKey path).run first).2.turns xs = last
  have hquiet : last.styles.generation = first.styles.generation ↔ ∀ x ∈ xs, x.happening.concerns = false := by
    have hgeneration : ((dependencyKey path).run first).2.styles.generation = first.styles.generation :=
      congrArg (·.2.2) (acrossRequests_basis.moves_dependencyKey path first)
    rw [← hlast, generation_turns, hgeneration, Nat.add_eq_left, List.countP_eq_zero]
    simp
  have hfiles : last.host.files = (storesIn xs).getLastD first.host.files := by
    rw [← hlast, files_turns, (acrossRequests_progress.moves_dependencyKey path first).files]
  rw [run_dependencyKey, run_dependencyKey]
  constructor
  · intro hsame
    obtain ⟨hchain, hlocated, hstamps, hgeneration⟩ := keyNow_same_iff.mp hsame
    refine ⟨hquiet.mp hgeneration, hchain, hlocated, fun p hp => ⟨hstamps p hp, fun hisFile hnever => ?_⟩⟩
    obtain ⟨f, hf⟩ := Option.isSome_iff_exists.mp hisFile
    have hstamp : first.host.files.stamp? p = some f.stamp := congrArg (Option.map StoredFile.stamp) hf
    exact hnever.get?_eq hstamp (hfiles ▸ (hstamps p hp).trans hstamp)
  · intro hempty hannounced hhoused hspared htool
    refine ⟨fun hsame => hquiet.mp (keyNow_same_iff.mp hsame).2.2.2, fun hnone => ?_⟩
    have hsound : first.styles.chains.Sound first.host.files.has :=
      hfirst ▸ sound_turns (hempty ▸ Chains.faithful_empty _ _) hannounced
    have hundisturbed : first.Undisturbed last :=
      hlast ▸ (undisturbed_dependencyKey hsound hhoused path).turns hnone hspared
    exact hundisturbed.keyNow_same hsound hhoused htool path

def plainHost : Host where
  files := (({} : FileStore).write "/.clang-format" (Utf8.encode "{}\n")).write "/bin/clang-format" []
  executables := [("clang-format", "/bin/clang-format")]

def copiedHost : Host := { plainHost with files := plainHost.files.write "/b.txt" (Utf8.encode "{}\n") }

/-- If the other file is announced as a new one, the key of a source file stays the same. -/
theorem dependencyKey_same_turns_after_write :
    let found := (dependencyKey "/a.c").run { host := plainHost }
    let last := found.2.turns [⟨{}, [], .change copiedHost⟩, ⟨{}, [], .query (.styleFor "/b.c" 0)⟩,
      ⟨{}, [], .events [.created "/b.txt"]⟩]
    found.1.same ((dependencyKey "/a.c").run last).1 = true ∧
      copiedHost.files.get? "/.clang-format" = plainHost.files.get? "/.clang-format" := by
  obtain ⟨htells, hkeeps⟩ := dependencyKey_same_turns { host := plainHost } [] [⟨{}, [], .change copiedHost⟩,
    ⟨{}, [], .query (.styleFor "/b.c" 0)⟩, ⟨{}, [], .events [.created "/b.txt"]⟩] "/a.c"
  have hhoused : plainHost.files.Housed := (FileStore.housed_empty.write _ _).write _ _
  have hspared : Spared { host := plainHost } copiedHost := by
    refine ⟨fun k hk => ?_, by decide +kernel, rfl, rfl, hhoused.write _ _⟩
    have hother : k ≠ key (normalize "/b.txt") := by
      rintro rfl
      revert hk
      unfold NamesConfig
      decide +kernel
    exact FileStore.find?_write_of_ne hother _ _
  have hsame := (hkeeps rfl ⟨announced_self _ _, trivial⟩ hhoused ?_ (by decide +kernel)).mpr (by decide +kernel)
  · refine ⟨hsame, ?_⟩
    have hnever : FileStore.NeverReused [plainHost.files] [copiedHost.files] := by
      have hstamps : ∀ f ∈ plainHost.files.files, f.stamp < plainHost.files.nextStamp := by decide +kernel
      refine FileStore.neverReused_of_isChain ?_ (List.isChain_pair.mpr (FileStore.succeeds_write _ _ _))
      intro old hold k f hf
      obtain rfl := List.mem_singleton.mp hold
      exact hstamps f (List.mem_of_find?_eq_some hf)
    exact ((htells hsame).2.2.2 "/.clang-format" (by decide +kernel)).2 (by decide +kernel) hnever _
      (List.mem_singleton_self _)
  · intro x hx host hhost
    simp only [List.mem_cons, List.not_mem_nil, or_false] at hx
    rcases hx with rfl | rfl | rfl <;> cases hhost
    exact hspared

/-- If it is announced as a copy, the key is another one, though nothing but that file is new: the event names the
configuration file that was copied. -/
theorem dependencyKey_not_same_after_copy :
    let found := (dependencyKey "/a.c").run { host := plainHost }
    let last := found.2.turns [⟨{}, [], .change copiedHost⟩,
      ⟨{}, [], .events [.copied "/.clang-format" "/b.txt"]⟩]
    (copiedHost.files.files.filter fun f => !plainHost.files.files.contains f).map (·.path) = [key "/b.txt"] ∧
      plainHost.files.files.all copiedHost.files.files.contains ∧ isConfigFile "/b.txt" = false ∧
      found.2.located = some "/bin/clang-format" ∧ last.located = some "/bin/clang-format" ∧
      found.1.same ((dependencyKey "/a.c").run last).1 = false := by
  decide +kernel

end Engine
end Restyle
