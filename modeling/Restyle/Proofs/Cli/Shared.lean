import Restyle.Proofs.Cli.Verdict

/-! # What files share

The files of a request share a store, the place of the tool, and the remembered chains and styles.  Whatever
the work on other files has left there, a file meets what it would meet alone.
-/
namespace Restyle
open Restyle.Path Work

/-- A tool that reads nothing but its call and the configuration files. -/
def Tool.ReadsConfigs (tool : Tool) : Prop :=
  ∀ (files other : FileStore) (number number' : Nat) (c : Call),
    (∀ k, NamesConfig k → (files.find? k).map (·.bytes) = (other.find? k).map (·.bytes)) →
      (tool files number c).result = (tool other number' c).result

/-! ### Stores -/

namespace FileStore

/-- A store in which files of another one were written again, but no configuration files. -/
structure Rewrites (s other : FileStore) : Prop where
  housed : s.Housed
  directories : s.directories = other.directories
  present : ∀ k, (s.find? k).isSome = (other.find? k).isSome
  configs : ∀ k, NamesConfig k → s.find? k = other.find? k

variable {s other : FileStore}

theorem Rewrites.refl (h : s.Housed) : s.Rewrites s := ⟨h, rfl, fun _ => rfl, fun _ _ => rfl⟩

theorem Rewrites.isFile (h : s.Rewrites other) : s.isFile = other.isFile := funext fun _ => h.present _

theorem Rewrites.has (h : s.Rewrites other) : s.has = other.has := funext fun _ => h.present _

theorem Rewrites.isDirectory (h : s.Rewrites other) : s.isDirectory = other.isDirectory := by
  funext path
  rw [FileStore.isDirectory, h.directories]
  rfl

theorem Rewrites.configWalk (h : s.Rewrites other) (path : String) :
    Restyle.configWalk s path = Restyle.configWalk other path := by
  unfold Restyle.configWalk
  rw [h.isFile, h.isDirectory]

theorem Rewrites.write (h : s.Rewrites other) {path : String} (hpresent : (s.get? path).isSome = true)
    (hconfig : ¬NamesConfig (key (normalize path))) (bytes : List UInt8) : (s.write path bytes).Rewrites other := by
  constructor
  · exact h.housed.write path bytes
  · exact (h.housed.directories_write hpresent bytes).trans h.directories
  · intro k
    rw [find?_write, ← h.present]
    split
    · rename_i hk
      rw [hk]
      exact hpresent.symm
    · rfl
  · intro k hk
    rw [find?_write, if_neg]
    · exact h.configs k hk
    · rintro rfl
      exact hconfig hk

end FileStore

theorem Style.ofKey_congr {path : String} {a b : DependencyKey} {answer answer' : String → Except Failure ToolOutput}
    (hc : a.configFiles.isEmpty = b.configFiles.isEmpty) (ht : a.tool.map (·.1) = b.tool.map (·.1))
    (ha : ∀ tool, answer tool = answer' tool) : Style.ofKey path a answer = Style.ofKey path b answer' := by
  unfold Style.ofKey
  rw [hc]
  cases hb : b.tool with
  | none =>
    rw [hb] at ht
    rw [Option.map_eq_none_iff.mp ht]
  | some found =>
    rw [hb] at ht
    obtain ⟨found', hfound, hsame⟩ := Option.map_eq_some_iff.mp ht
    obtain ⟨tool, stamp⟩ := found
    obtain ⟨tool', stamp'⟩ := found'
    cases hsame
    rw [hfound]
    dsimp only
    rw [ha]

namespace Cli
open Engine

/-- Files that are told apart by their paths, on a host whose tool reads nothing but configuration files. -/
structure Apart (h : Host) (files : List String) : Prop where
  housed : h.files.Housed
  reads : ∀ tool, h.tool = some tool → tool.ReadsConfigs
  normal : ∀ file ∈ files, ∃ path, file = normalize path
  nodup : files.Nodup

variable {s : Settings} {h : Host} {files : List String} {file : String} {e after : Engine}

theorem Apart.eq_of_key (ha : Apart h files) {other : String} (hf : file ∈ files) (ho : other ∈ files)
    (hk : key file = key other) : file = other := by
  obtain ⟨path, rfl⟩ := ha.normal file hf
  obtain ⟨path', rfl⟩ := ha.normal other ho
  exact normalize_eq_of_key_eq (by rw [key_normalize, hk, key_normalize (normalize path')])

theorem Apart.stored_eq (ha : Apart h files) (hf : file ∈ files) : stored file = key file := by
  obtain ⟨path, rfl⟩ := ha.normal file hf
  rw [stored, key_normalize, key_normalize, Key.normal_normal]

/-- What is done for a file leaves an engine like this, on which all that matters to another file is as at the
beginning. -/
structure Shared (s : Settings) (h : Host) (files : List String) (e : Engine) : Prop where
  settings : e.settings = s
  tool : e.host.tool = h.tool
  executables : e.host.executables = h.executables
  directory : e.host.directory = h.directory
  out : e.host.out = h.out
  store : e.host.files.Rewrites h.files
  found : e.foundTool = none ∨ e.foundTool = h.executable? "clang-format"
  chains : e.styles.chains.Sound h.files.has
  kept : ∀ entry ∈ e.styles.styles.entries, ∃ file ∈ files, entry.1 = key file ∧
    entry.2.2 = (fresh s h).styleNow file
  agenda : e.agenda = []
  cancelled : e.desk.cancelled = []

namespace Shared

theorem executable? (hs : Shared s h files e) (name : String) : e.host.executable? name = h.executable? name := by
  rw [Host.executable?, hs.executables]
  rfl

theorem isCancelled (hs : Shared s h files e) (t : Token) : e.desk.isCancelled t = false := by
  rw [Desk.isCancelled, hs.cancelled]
  rfl

theorem located (hs : Shared s h files e) : e.located = (fresh s h).located := by
  have habsolute (path : String) : e.host.absolute path = h.absolute path := by
    rw [Host.absolute, hs.directory]
    rfl
  unfold Engine.located
  rw [hs.settings, hs.store.isFile, hs.executable?]
  cases hpath : s.clangFormatPath with
  | none =>
    have hfresh : (fresh s h).settings.clangFormatPath = none := hpath
    rw [hfresh]
    dsimp only [fresh]
    -- What was found before is what a search would find, whether or not it is still there.
    rcases hs.found with hfound | hfound
    · rw [hfound]
    · rw [hfound]
      cases h.executable? "clang-format" with
      | none => rfl
      | some p =>
        rw [Option.filter_some]
        split <;> rfl
  | some given =>
    have hfresh : (fresh s h).settings.clangFormatPath = some given := hpath
    rw [hfresh]
    dsimp only [fresh]
    rw [habsolute]

theorem placed (hs : Shared s h files e) : e.host.placed = h.placed := by
  funext file command
  rw [Host.placed, hs.store.isDirectory]
  rfl

theorem answer (hs : Shared s h files e) (ha : Apart h files) (number number' : Nat) (c : Call) :
    e.host.answer number c = h.answer number' c := by
  unfold Host.answer
  rw [hs.tool]
  cases htool : h.tool with
  | none => rfl
  | some tool =>
    refine ha.reads tool htool _ _ number number' c ?_
    intro k hk
    rw [hs.store.configs k hk]

theorem dump (hs : Shared s h files e) (ha : Apart h files) (number number' : Nat) (path tool : String) :
    e.host.dump number path tool = h.dump number' path tool := by
  rw [Host.dump, hs.placed]
  exact hs.answer ha number number' _

theorem configFiles_isEmpty (hs : Shared s h files e) (path : String) :
    (e.styles.chains.configFiles e.host.files path).1.isEmpty = (configWalk h.files path).isEmpty := by
  have hsound : e.styles.chains.Sound e.host.files.has := by
    rw [hs.store.has]
    exact hs.chains
  have hkeys := congrArg List.isEmpty (hsound.configFiles path).1
  rw [List.isEmpty_map, List.isEmpty_map, hs.store.configWalk] at hkeys
  exact hkeys

theorem of_quiet (hs : Shared s h files e) (hq : after.quiet = e.quiet) : Shared s h files after := by
  have hquiet : Shared s h files e.quiet :=
    ⟨hs.settings, hs.tool, hs.executables, hs.directory, hs.out, hs.store, hs.found, hs.chains, hs.kept, hs.agenda,
      hs.cancelled⟩
  rw [← hq] at hquiet
  exact ⟨hquiet.settings, hquiet.tool, hquiet.executables, hquiet.directory, hquiet.out, hquiet.store,
    hquiet.found, hquiet.chains, hquiet.kept, hquiet.agenda, hquiet.cancelled⟩

theorem write (hs : Shared s h files e) (ha : Apart h files) (hf : file ∈ files)
    (hpresent : (h.files.get? file).isSome = true) (hconfig : isConfigFile file = false) (bytes : List UInt8) :
    Shared s h files { e with host := { e.host with files := e.host.files.write file bytes } } := by
  refine { hs with store := hs.store.write ?_ ?_ bytes }
  · exact (hs.store.present _).trans hpresent
  · intro hnames
    have hstored : NamesConfig (stored file) := hnames
    rw [ha.stored_eq hf] at hstored
    rw [isConfigFile_of_namesConfig hstored] at hconfig
    cases hconfig

theorem fresh (ha : Apart h files) : Shared s h files (fresh s h) where
  settings := rfl
  tool := rfl
  executables := rfl
  directory := rfl
  out := rfl
  store := .refl ha.housed
  found := Or.inl rfl
  chains := Chains.sound_empty _
  kept := by
    intro entry hentry
    cases hentry
  agenda := rfl
  cancelled := rfl

end Shared

/-! ### What a file meets -/

structure Tells (s : Settings) (h : Host) (file : String) (dependencies : DependencyKey) : Prop where
  configs : dependencies.configFiles.isEmpty = (configWalk h.files file).isEmpty
  tool : dependencies.tool.map (·.1) = (fresh s h).located

namespace Shared

theorem tells_keyNow (hs : Shared s h files e) (path : String) : Tells s h path (e.keyNow path) := by
  constructor
  · dsimp only [keyNow]
    rw [List.isEmpty_map]
    exact hs.configFiles_isEmpty path
  · dsimp only [keyNow]
    rw [Option.map_map, ← hs.located]
    cases e.located <;> rfl

/-- The style that is asked for is the one that would be found alone. -/
theorem ofKey_eq (hs : Shared s h files e) (ha : Apart h files) {dependencies : DependencyKey}
    (ht : Tells s h file dependencies) (number : Nat) :
    Style.ofKey file dependencies (e.host.dump number file) = (Cli.fresh s h).styleNow file := by
  have htells := (Shared.fresh (s := s) ha).tells_keyNow file
  have hnone : (Cli.fresh s h).styles.remembered? file ((Cli.fresh s h).keyNow file) = none := rfl
  rw [styleNow, hnone, Option.getD_none]
  refine Style.ofKey_congr (ht.configs.trans htells.configs.symm) (ht.tool.trans htells.tool.symm) ?_
  exact hs.dump ha number _ file

theorem remembered_eq (hs : Shared s h files e) (ha : Apart h files) (hf : file ∈ files)
    {dependencies : DependencyKey} {style : Except Failure Style}
    (hr : e.styles.remembered? file dependencies = some style) : style = (Cli.fresh s h).styleNow file := by
  obtain ⟨stored, hmem, -⟩ := StyleMemory.mem_of_remembered? hr
  obtain ⟨other, hother, hkey, hstyle⟩ := hs.kept _ hmem
  rw [ha.eq_of_key hf hother hkey]
  exact hstyle

theorem editNow_eq (hs : Shared s h files e) (ha : Apart h files) (number number' : Nat) (source : List UInt8)
    (stamp : Nat) : e.editNow number file source stamp = (Cli.fresh s h).editNow number' file source stamp := by
  unfold editNow
  rw [hs.located, hs.placed]
  cases (Cli.fresh s h).located with
  | none => rfl
  | some tool =>
    exact congrArg (Prepared.ofAnswer (Invocation.format tool file false) source stamp)
      (hs.answer ha number number' _)

end Shared

/-! ### What is left -/

/-- Work from one engine to another leaves what files share, and neither documents nor files are changed. -/
def Carries (s : Settings) (h : Host) (files : List String) (e after : Engine) : Prop :=
  Shared s h files e → Shared s h files after ∧ after.desk = e.desk ∧ after.host.files = e.host.files

theorem acrossCalls_carries (s : Settings) (h : Host) (files : List String) :
    AcrossCalls (Carries s h files) where
  refl _ hs := ⟨hs, rfl, rfl⟩
  trans hfirst hsecond hs := by
    obtain ⟨hmid, hdesk, hfiles⟩ := hfirst hs
    obtain ⟨hafter, hdesk', hfiles'⟩ := hsecond hmid
    exact ⟨hafter, hdesk'.trans hdesk, hfiles'.trans hfiles⟩
  debug e line hs := ⟨hs.of_quiet (unlogged_quiet.debug e line), rfl, files_debug e.host line⟩
  search e _ hs := ⟨{ hs with found := Or.inr (hs.executable? _) }, rfl, rfl⟩
  call _ _ hs := ⟨{ hs with }, rfl, rfl⟩
  agenda e _ hs := by
    have hdesk : (runAgenda.run e).2.desk = e.desk := by
      rw [desk_runAgenda, hs.agenda]
      rfl
    refine ⟨{ hs with agenda := rfl, cancelled := ?_ }, hdesk, rfl⟩
    rw [hdesk]
    exact hs.cancelled

theorem carries_configFiles (path : String) : Moves (Carries s h files) (configFiles path) := by
  intro e hs
  refine ⟨{ hs with chains := ?_ }, rfl, rfl⟩
  have hsound : e.styles.chains.Sound e.host.files.has := by
    rw [hs.store.has]
    exact hs.chains
  have hafter := (hsound.configFiles path).2
  rw [hs.store.has] at hafter
  exact hafter

theorem carries_dependencyKey (path : String) : Moves (Carries s h files) (dependencyKey path) := by
  have hacross := acrossCalls_carries s h files
  unfold dependencyKey
  refine hacross.bind (carries_configFiles path) fun configs => hacross.get_bind fun e => ?_
  exact hacross.bind hacross.moves_toolPath fun tool => hacross.get_bind fun e => hacross.pure _

theorem carries_look (file : String) : Moves (Carries s h files) (look file) := by
  have hacross := acrossCalls_carries s h files
  unfold look
  refine hacross.get_bind fun e => ?_
  split
  · exact hacross.pure _
  split
  · exact hacross.pure _
  refine hacross.bind (hacross.bind (carries_configFiles file) fun _ => hacross.pure _) fun configured => ?_
  split
  · exact hacross.pure _
  refine hacross.bind (carries_dependencyKey file) fun dependencies => hacross.get_bind fun e => ?_
  split
  · exact hacross.pure _
  · exact hacross.pure _

theorem carries_prepareFor (file : String) (ticket : Ticket) (reason : Except Failure (Option Reason)) :
    Moves (Carries s h files) (prepareFor file ticket reason) := by
  have hacross := acrossCalls_carries s h files
  unfold prepareFor
  split
  · exact hacross.pure _
  · exact hacross.debug_bind fun _ => hacross.pure _
  · exact hacross.moves_requestEdit _ _ _ _

/-- A style that was found is remembered for its file. -/
theorem carries_learn (hf : file ∈ files) (dependencies : DependencyKey) :
    Moves (Carries s h files) (learn file dependencies ((Cli.fresh s h).styleNow file)) := by
  intro e hs
  refine ⟨{ hs with chains := ?_, kept := ?_ }, rfl, rfl⟩
  · have hchains := chains_remember e.styles file dependencies ((Cli.fresh s h).styleNow file)
    have hlearnt : ((learn file dependencies ((Cli.fresh s h).styleNow file)).run e).2.styles.chains =
        e.styles.chains := hchains
    rw [hlearnt]
    exact hs.chains
  · intro entry hentry
    have hentry : entry ∈
        (e.styles.remember file dependencies ((Cli.fresh s h).styleNow file)).styles.entries := hentry
    rcases StyleMemory.styles_remember file dependencies ((Cli.fresh s h).styleNow file) with
      ⟨-, hsame⟩ | ⟨-, hinsert⟩
    · rw [hsame] at hentry
      exact hs.kept entry hentry
    · rw [hinsert] at hentry
      rcases Recent.mem_insert hentry with hentry | rfl
      · exact hs.kept entry hentry
      · exact ⟨file, hf, rfl, rfl⟩

/-! ### What is answered -/

def Fits (s : Settings) (h : Host) (file : String) : Finding → Prop
  | .known reason => reason = (fresh s h).reasonNow file
  | .unknown dependencies => Tells s h file dependencies ∧
    (fresh s h).reasonNow file = Reason.ofStyle file ((fresh s h).styleNow file)

theorem Shared.fits_look (hs : Shared s h files e) (ha : Apart h files) (hf : file ∈ files) :
    Fits s h file ((look file).run e).1 := by
  have hempty : ((configFiles file).run e).1.isEmpty = (configWalk h.files file).isEmpty :=
    hs.configFiles_isEmpty file
  have hreason : (Cli.fresh s h).reasonNow file = if s.enabled = false then .ok (some .disabled)
      else if isConfigFile file = true then .ok (some .configurationFile)
      else if (configWalk h.files file).isEmpty = true then .ok (some .notConfigured)
      else Reason.ofStyle file ((Cli.fresh s h).styleNow file) := by
    rw [← (Shared.fresh (s := s) ha).configFiles_isEmpty file]
    rfl
  rw [run_look, hs.settings, hempty]
  split
  · rename_i henabled
    rw [if_pos henabled] at hreason
    exact hreason.symm
  rename_i henabled
  rw [if_neg henabled] at hreason
  split
  · rename_i hfile
    rw [if_pos hfile] at hreason
    exact hreason.symm
  rename_i hfile
  rw [if_neg hfile] at hreason
  split
  · rename_i hchain
    rw [if_pos hchain] at hreason
    exact hreason.symm
  rename_i hchain
  rw [if_neg hchain] at hreason
  obtain ⟨hmid, -, -⟩ := carries_configFiles file e hs
  obtain ⟨hafter, -, -⟩ := carries_dependencyKey file _ hmid
  have htells := hmid.tells_keyNow file
  rw [← run_dependencyKey] at htells
  dsimp only
  cases hremembered : ((dependencyKey file).run ((configFiles file).run e).2).2.styles.remembered? file
      ((dependencyKey file).run ((configFiles file).run e).2).1 with
  | some style =>
    rw [← hafter.remembered_eq ha hf hremembered] at hreason
    exact hreason.symm
  | none => exact ⟨htells, hreason⟩

theorem Shared.run_computeStyle (hs : Shared s h files e) (ha : Apart h files) {dependencies : DependencyKey}
    (ht : Tells s h file dependencies) (t : Token) :
    ((computeStyle file dependencies t).run e).1 = (Cli.fresh s h).styleNow file := by
  obtain ⟨hafter, -, -⟩ := (acrossCalls_carries s h files).moves_computeStyle file dependencies t e hs
  rcases computeStyle_cases file dependencies t e with ⟨-, hcancelled⟩ | hstyle
  · rw [hafter.isCancelled] at hcancelled
    cases hcancelled
  · rw [hstyle]
    exact hs.ofKey_eq ha ht _

theorem Shared.run_prepareFor (hs : Shared s h files e) (ha : Apart h files) (ticket : Ticket) :
    ((prepareFor file ticket ((Cli.fresh s h).reasonNow file)).run e).1 =
      (Cli.fresh s h).preparedNow 0 file ticket.source ticket.stamp := by
  obtain ⟨hafter, -, -⟩ := carries_prepareFor file ticket ((Cli.fresh s h).reasonNow file) e hs
  unfold preparedNow
  generalize (Cli.fresh s h).reasonNow file = judged at hafter ⊢
  rcases judged with f | reason | reason
  · rfl
  · unfold prepareFor at hafter ⊢
    rcases requestEdit_cases file ticket.source ticket.stamp ticket.token e with ⟨-, hcancelled⟩ | ⟨hedit, -⟩
    · have hlive := hafter.isCancelled ticket.token
      rw [hcancelled] at hlive
      cases hlive
    · exact hedit.trans (hs.editNow_eq ha _ 0 _ _)
  · rfl

end Cli
end Restyle
