import Restyle.Proofs.Style.Fresh

/-! # Remembered styles

A style is remembered with the stamps of its configuration files and of the tool.  If stamps tell contents
apart, and the tool answers from the path, the configuration files and its own file alone, then a remembered
style whose stamps still hold is the style as it is now.
-/
namespace Restyle
open Restyle.Path Work

/-! ### Remembered results -/

namespace Recent

variable {α : Type}

theorem mem_of_get?_eq_some {r : Recent α} {path : String} {value : α} (h : r.get? path = some value) :
    (key path, value) ∈ r.entries := by
  obtain ⟨entry, hfind, rfl⟩ := Option.map_eq_some_iff.mp h
  have hkey : entry.1 = key path := by simpa using List.find?_some hfind
  rw [← hkey]
  exact List.mem_of_find?_eq_some hfind

theorem mem_insert {r : Recent α} {path : String} {value : α} {entry : Key × α}
    (h : entry ∈ (r.insert path value).entries) : entry ∈ r.entries ∨ entry = (key path, value) := by
  rcases List.mem_append.mp h with h | h
  · left
    split at h
    · exact List.mem_of_mem_filter (List.mem_of_mem_drop h)
    · exact List.mem_of_mem_filter h
  · exact Or.inr (List.mem_singleton.mp h)

end Recent

theorem DependencyKey.same_iff (a b : DependencyKey) : a.same b = true ↔
    a.configFiles.map stamped = b.configFiles.map stamped ∧ a.tool.map stamped = b.tool.map stamped ∧
      a.generation = b.generation := by
  rw [same, Bool.and_eq_true, Bool.and_eq_true, decide_eq_true_iff, decide_eq_true_iff, decide_eq_true_iff, and_assoc]

theorem DependencyKey.map_stamped (files : FileStore) (paths : List String) :
    (paths.map fun p => (p, files.stamp? p)).map stamped = (paths.map key).map fun k => (k, files.stampAt? k) := by
  rw [List.map_map, List.map_map]
  refine List.map_congr_left fun p _ => ?_
  exact congrArg (Prod.mk (key p)) (files.stamp?_eq p)

theorem StyleMemory.mem_of_remembered? {m : StyleMemory} {path : String} {dependencies : DependencyKey}
    {result : Except Failure Style} (h : m.remembered? path dependencies = some result) :
    ∃ stored : DependencyKey, (key path, stored, result) ∈ m.styles.entries ∧ stored.same dependencies = true := by
  obtain ⟨entry, hget, hsame⟩ := Option.bind_eq_some_iff.mp h
  split at hsame
  · rename_i hkey
    cases hsame
    exact ⟨entry.1, Recent.mem_of_get?_eq_some hget, hkey⟩
  · cases hsame

/-! ### What a style follows from -/

def configContents (files : FileStore) (path : String) : List (Key × Option (List UInt8)) :=
  (configWalk files path).map fun c => (key c, files.content? (key c))

def configStamps (files : FileStore) (path : String) : List (Key × Option Nat) :=
  (configWalk files path).map fun c => (key c, files.stampAt? (key c))

/-- How tools answer requests for styles: from the path of a file, its configuration files with their contents,
and the tool with its content. -/
abbrev Answers :=
  String → List (Key × Option (List UInt8)) → String → Option (List UInt8) → Except Failure ToolOutput

def styleBy (answers : Answers) (files : FileStore) (path : String) (tool : Option String) : Except Failure Style :=
  if (configContents files path).isEmpty then .error .notConfigured
  else match tool with
    | none => .error .toolNotFound
    | some tool => Style.ofAnswer (Invocation.dumpConfig tool path false)
      (answers path (configContents files path) tool (files.content? (key tool)))

/-- Whether files of two stores with the same path and the same stamp have the same content. -/
def StampsTell (files other : FileStore) : Prop :=
  ∀ k f f', files.find? k = some f → other.find? k = some f' → f.stamp = f'.stamp → f.bytes = f'.bytes

theorem StampsTell.content?_eq {files other : FileStore} (h : StampsTell files other) {k : Key}
    (hs : files.stampAt? k = other.stampAt? k) : files.content? k = other.content? k := by
  unfold FileStore.stampAt? at hs
  unfold FileStore.content?
  cases hf : files.find? k.normal with
  | none =>
    rw [hf] at hs
    rw [Option.map_eq_none_iff.mp hs.symm]
  | some f =>
    rw [hf] at hs
    obtain ⟨f', hf', hstamp⟩ := Option.map_eq_some_iff.mp hs.symm
    rw [hf', Option.map_some, Option.map_some, h _ f f' hf hf' hstamp.symm]

theorem stampsTell_of_files {files other : FileStore} (h : ∀ f ∈ files.files, ∀ f' ∈ other.files,
    f.path = f'.path → f.stamp = f'.stamp → f.bytes = f'.bytes) : StampsTell files other := by
  intro k f f' hf hf' hstamp
  have hpath : f.path = k := by simpa using List.find?_some hf
  have hpath' : f'.path = k := by simpa using List.find?_some hf'
  exact h f (List.mem_of_find?_eq_some hf) f' (List.mem_of_find?_eq_some hf') (hpath.trans hpath'.symm) hstamp

theorem stampAt?_of_mem {files : FileStore} {path : String} {p : Key × Option Nat} (h : p ∈ configStamps files path) :
    files.stampAt? p.1 = p.2 := by
  obtain ⟨c, -, rfl⟩ := List.mem_map.mp h
  rfl

theorem StampsTell.configContents_eq {files other : FileStore} (h : StampsTell files other) {path : String}
    (hs : configStamps files path = configStamps other path) : configContents files path = configContents other path := by
  have hcontents (s : FileStore) : configContents s path = (configStamps s path).map fun p => (p.1, s.content? p.1) := by
    rw [configStamps, List.map_map]
    rfl
  rw [hcontents, hcontents, ← hs]
  refine List.map_congr_left fun p hp => ?_
  have hstamp := (stampAt?_of_mem hp).trans (stampAt?_of_mem (hs ▸ hp)).symm
  rw [h.content?_eq hstamp]

def toolStamp (files : FileStore) (tool : Option String) : Option (Key × Option Nat) :=
  tool.map fun p => (key p, files.stampAt? (key p))

/-- Equal stamps make equal styles, if a tool that is the same is written in the same way. -/
theorem StampsTell.styleBy_eq {files other : FileStore} (h : StampsTell files other) (answers : Answers) {path : String}
    {tool tool' : Option String} (hs : configStamps files path = configStamps other path)
    (ht : toolStamp files tool = toolStamp other tool') (hspelled : ∀ p ∈ tool, ∀ p' ∈ tool', key p = key p' → p = p') :
    styleBy answers files path tool = styleBy answers other path tool' := by
  unfold styleBy
  rw [h.configContents_eq hs]
  cases tool with
  | none =>
    rw [Option.map_eq_none_iff.mp ht.symm]
  | some p =>
    obtain ⟨p', rfl, hp⟩ := Option.map_eq_some_iff.mp ht.symm
    obtain ⟨hkey, hstamp⟩ := Prod.mk.inj hp
    have heq := hspelled p rfl p' rfl hkey.symm
    subst heq
    dsimp only
    rw [h.content?_eq hstamp.symm]

/-! ### Steady hosts -/

/-- Hosts whose stamps tell contents apart and whose tools, where they are asked for the styles of some paths,
answer from the path, the configuration files and the tool alone.  Each of the paths, and each place of a tool,
is written in one way. -/
structure Steady (answers : Answers) (hosts : List Host) (paths tools : List String) : Prop where
  determined : ∀ h ∈ hosts, ∀ path ∈ paths, ∀ tool ∈ tools, ∀ number,
    h.dump number path tool = answers path (configContents h.files path) tool (h.files.content? (key tool))
  stamps : ∀ h ∈ hosts, ∀ h' ∈ hosts, StampsTell h.files h'.files
  paths_spelled : ∀ a ∈ paths, ∀ b ∈ paths, key a = key b → a = b
  tools_spelled : ∀ a ∈ tools, ∀ b ∈ tools, key a = key b → a = b

/-- A remembered result is the style of a path at some host, with the key of that moment. -/
def Kept (answers : Answers) (hosts : List Host) (paths tools : List String)
    (entry : Key × DependencyKey × Except Failure Style) : Prop :=
  ∃ path ∈ paths, ∃ h ∈ hosts, ∃ tool : Option String, (∀ p ∈ tool, p ∈ tools) ∧ entry.1 = key path ∧
    entry.2.1.configFiles.map DependencyKey.stamped = configStamps h.files path ∧
    entry.2.1.tool.map DependencyKey.stamped = toolStamp h.files tool ∧
    entry.2.2 = styleBy answers h.files path tool ∧ entry.2.2 ≠ .error .cancelled

def Host.places (h : Host) (s : Settings) : List String :=
  match s.clangFormatPath with
  | none => (h.executable? "clang-format").toList
  | some given => [h.absolute (Text.trim given)]

namespace Engine

/-- An engine on one of some hosts, which finds the tool at one of some places and remembers results from such
hosts. -/
structure Tracks (answers : Answers) (hosts : List Host) (paths tools : List String) (e : Engine) : Prop where
  host : ∃ h ∈ hosts, e.host.files = h.files ∧ e.host.tool = h.tool ∧ e.host.executables = h.executables ∧
    e.host.directory = h.directory
  places : ∀ h ∈ hosts, ∀ p ∈ h.places e.settings, p ∈ tools
  found : e.settings.clangFormatPath = none → ∀ p ∈ e.foundTool, p ∈ tools
  kept : ∀ entry ∈ e.styles.styles.entries, Kept answers hosts paths tools entry

variable {answers : Answers} {hosts : List Host} {paths tools : List String} {e : Engine}

theorem Tracks.places_host (h : e.Tracks answers hosts paths tools) : ∀ p ∈ e.host.places e.settings, p ∈ tools := by
  obtain ⟨host, hmem, -, -, hexecutables, hdirectory⟩ := h.host
  have hplaces : e.host.places e.settings = host.places e.settings := by
    unfold Host.places Host.executable? Host.absolute
    rw [hexecutables, hdirectory]
  rw [hplaces]
  exact h.places host hmem

theorem Tracks.located (h : e.Tracks answers hosts paths tools) : ∀ p ∈ e.located, p ∈ tools := by
  have hplaces := h.places_host
  intro p hp
  unfold Engine.located at hp
  unfold Host.places at hplaces
  split at hp
  · rename_i hs
    rw [hs] at hplaces
    rcases Option.or_eq_some_iff.mp hp with hfound | ⟨-, hexecutable⟩
    · exact h.found hs p (Option.filter_eq_some_iff.mp hfound).1
    · exact hplaces p (Option.mem_toList.mpr hexecutable)
  · rename_i given hs
    rw [hs] at hplaces
    obtain rfl := Option.some.inj (Option.filter_eq_some_iff.mp hp).1
    exact hplaces _ (List.mem_singleton_self _)

/-- The dependencies of a style stand for the files as they are, and its style follows from them. -/
theorem Tracks.style_eq (h : e.Tracks answers hosts paths tools) (hs : Steady answers hosts paths tools)
    (hc : e.styles.chains.Sound e.host.files.has) {path : String} (hp : path ∈ paths) :
    let dependencies := ((dependencyKey path).run e).1
    dependencies.configFiles.map DependencyKey.stamped = configStamps e.host.files path ∧
    dependencies.tool.map DependencyKey.stamped = toolStamp e.host.files e.located ∧
    ∀ number, Style.ofKey path dependencies (e.host.dump number path) = styleBy answers e.host.files path e.located := by
  have hwalk := (hc.configFiles path).1
  rw [run_dependencyKey]
  dsimp only [keyNow]
  refine ⟨?_, ?_, ?_⟩
  -- Remembered chains may spell a path in another way than the walk, so both are compared as keys.
  · rw [DependencyKey.map_stamped, hwalk, List.map_map]
    rfl
  · cases e.located with
    | none => rfl
    | some p => exact congrArg (fun stamp => some (key p, stamp)) (e.host.files.stamp?_eq p)
  · intro number
    have hempty : ((e.styles.chains.configFiles e.host.files path).1.map fun c => (c, e.host.files.stamp? c)).isEmpty =
        (configContents e.host.files path).isEmpty := by
      have hkeys := congrArg List.isEmpty hwalk
      rw [List.isEmpty_map, List.isEmpty_map] at hkeys
      rw [configContents, List.isEmpty_map, List.isEmpty_map, hkeys]
    unfold Style.ofKey styleBy
    rw [hempty]
    cases htool : e.located with
    | none => rfl
    | some tool =>
      obtain ⟨host, hmem, hfiles, hhost, -, -⟩ := h.host
      have hdump : e.host.dump number path tool = host.dump number path tool := by
        unfold Host.dump Host.answer Host.placed
        rw [hfiles, hhost]
      dsimp only [Option.map_some]
      rw [hdump, hs.determined host hmem path hp tool (h.located tool htool), hfiles]

/-- A remembered result whose key holds is the style as it is now. -/
theorem Tracks.remembered_eq (h : e.Tracks answers hosts paths tools) (hs : Steady answers hosts paths tools)
    (hc : e.styles.chains.Sound e.host.files.has) {path : String} (hp : path ∈ paths) {result : Except Failure Style}
    (hr : e.styles.remembered? path ((dependencyKey path).run e).1 = some result) :
    result = styleBy answers e.host.files path e.located := by
  obtain ⟨hconfigs, htool, -⟩ := h.style_eq hs hc hp
  obtain ⟨stored, hmem, hsame⟩ := StyleMemory.mem_of_remembered? hr
  obtain ⟨hsameConfigs, hsameTool, -⟩ := (DependencyKey.same_iff _ _).mp hsame
  obtain ⟨path', hp', host, hhost, tool, htools, hkey, hstored, hstoredTool, rfl, -⟩ := h.kept _ hmem
  obtain ⟨now, hnow, hfiles, -, -, -⟩ := h.host
  have hpath : path = path' := hs.paths_spelled path hp path' hp' hkey
  subst hpath
  dsimp only at hstored hstoredTool ⊢
  -- The stamps at the time of the entry are those of now, and so are the contents behind them.
  have htell : StampsTell host.files e.host.files := hfiles ▸ hs.stamps host hhost now hnow
  refine htell.styleBy_eq answers ?_ ?_ ?_
  · exact hstored.symm.trans (hsameConfigs.trans hconfigs)
  · exact hstoredTool.symm.trans (hsameTool.trans htool)
  · intro p hp p' hp' heq
    exact hs.tools_spelled p (htools p hp) p' (h.located p' hp') heq

theorem Tracks.of_progress {after : Engine} (h : e.Tracks answers hosts paths tools) (hp : e.Progress after)
    (hk : ∀ entry ∈ after.styles.styles.entries, Kept answers hosts paths tools entry) :
    after.Tracks answers hosts paths tools := by
  refine ⟨?_, ?_, ?_, hk⟩
  · rw [hp.files, hp.tool, hp.executables, hp.directory]
    exact h.host
  · rw [hp.settings]
    exact h.places
  · intro hs p hmem
    rw [hp.settings] at hs
    rcases hp.found with hfound | hfound
    · exact h.found hs p (hfound ▸ hmem)
    · have hplaces := h.places_host
      rw [Host.places, hs] at hplaces
      exact hplaces p (Option.mem_toList.mpr (hfound ▸ hmem))

/-- A request for a style answers what follows from the files as they are, or is cancelled.  What it remembers
is no cancellation, and the tool is not called if the key of the remembered result holds. -/
theorem Tracks.styleFor (h : e.Tracks answers hosts paths tools) (hs : Steady answers hosts paths tools)
    (hc : e.styles.chains.Sound e.host.files.has) {path : String} (hp : path ∈ paths) (t : Token) :
    let asked := (Engine.styleFor path t).run e
    (asked.1 = styleBy answers e.host.files path e.located ∨
      asked.1 = .error .cancelled ∧ asked.2.desk.isCancelled t = true) ∧
    asked.2.Tracks answers hosts paths tools := by
  have hprogress := acrossRequests_progress.moves_styleFor path t e
  obtain ⟨hconfigs, htool, hstyle⟩ := h.style_eq hs hc hp
  dsimp only
  rcases styleFor_cases path t e with ⟨hremembered, hstyles, -⟩ | ⟨-, hstyles, hanswer⟩
  · refine ⟨Or.inl (h.remembered_eq hs hc hp hremembered), h.of_progress hprogress ?_⟩
    rw [hstyles]
    exact h.kept
  · rw [hstyle] at hanswer
    refine ⟨hanswer.symm, h.of_progress hprogress ?_⟩
    rw [hstyles]
    rcases StyleMemory.styles_remember path ((dependencyKey path).run e).1 ((Engine.styleFor path t).run e).1 with
      ⟨-, hsame⟩ | ⟨hne, hinsert⟩
    · rw [hsame]
      exact h.kept
    -- The new entry is about the host as it is now.
    · rw [hinsert]
      intro entry hentry
      rcases Recent.mem_insert hentry with hentry | rfl
      · exact h.kept entry hentry
      · obtain ⟨host, hhost, hfiles, -, -, -⟩ := h.host
        have hfresh := hanswer.resolve_left fun hcancelled => hne hcancelled.1
        refine ⟨path, hp, host, hhost, e.located, h.located, rfl, ?_, ?_, ?_, hne⟩
        · rw [← hfiles]
          exact hconfigs
        · rw [← hfiles]
          exact htool
        · rw [← hfiles]
          exact hfresh

end Engine

end Restyle
