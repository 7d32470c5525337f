import Restyle.Proofs.Style.Hints
import Restyle.Proofs.Style.Turns

/-! # Hints along a run

Requests for hints of any files come between all else that may happen.  What they answer is, file by file,
what follows from how that file stood at its own requests; and how it stood is, where changes are announced,
how it stands for an engine that has done nothing before.
-/
namespace Restyle
open Restyle.Path Work

structure Asking where
  desk : Desk
  agenda : List DeskStep
  file : String
  token : Token

inductive Moment where
  | turn (x : Turn)
  | ask (a : Asking)

namespace Moment

def host? : Moment → Option Host
  | turn x => x.happening.host?
  | ask _ => none

def file? : Moment → Option String
  | turn x => x.happening.asked?
  | ask a => some a.file

/-- What happens, where a request for hints counts as one for the style. -/
def happening : Moment → Happening
  | turn x => x.happening
  | ask a => .query (.styleFor a.file a.token)

end Moment

namespace Engine

def facing (e : Engine) (a : Asking) : Engine := { e with desk := a.desk, agenda := a.agenda }

def live (e : Engine) : Moment → Engine
  | .turn x => e.turn x
  | .ask a => ((hintsFor a.file a.token).run (e.facing a)).2

def lives (e : Engine) (ms : List Moment) : Engine := ms.foldl live e

def history (e : Engine) : List Moment → History
  | [] => []
  | .turn x :: ms => (e.turn x).history ms
  | .ask a :: ms => (key a.file, (e.facing a).standing a.file a.token) :: (e.live (.ask a)).history ms

/-- No request of a run is cancelled before its end. -/
def Uncancelled (e : Engine) : List Moment → Prop
  | [] => True
  | .turn x :: ms => (e.turn x).Uncancelled ms
  | .ask a :: ms => (e.live (.ask a)).desk.isCancelled a.token = false ∧ (e.live (.ask a)).Uncancelled ms

end Engine

/-- How files stand at the requests of a run for an engine that is new each time.  Nothing but the settings,
the host at that time and the file itself counts. -/
def History.foreseen (s : Settings) (h : Host) : List Moment → History
  | [] => []
  | .turn x :: ms => foreseen s (x.happening.host?.getD h) ms
  | .ask a :: ms =>
    (key a.file, ({ host := h, settings := s } : Engine).standing a.file 0) :: foreseen s h ms

namespace Engine

/-! ### The memory along a run -/

theorem hints_ask (q : Query) (e : Engine) : (q.ask e).hints = e.hints ∧ (q.ask e).settings = e.settings := by
  cases q with
  | configFiles path => exact ⟨rfl, rfl⟩
  | isConfigured path => exact ⟨rfl, rfl⟩
  | styleFile path => exact ⟨rfl, rfl⟩
  | dependencyKey path => exact acrossRequests_hints.moves_dependencyKey path e
  | styleFor path token => exact acrossRequests_hints.moves_styleFor path token e

theorem hints_happen (e : Engine) (x : Happening) :
    (e.happen x).hints = e.hints ∧ (e.happen x).settings = e.settings := by
  cases x with
  | query q => exact hints_ask q e
  | change host => exact ⟨rfl, rfl⟩
  | events batch =>
    obtain ⟨err, hrun⟩ := run_handleEvents batch e
    rw [happen, hrun]
    exact ⟨rfl, rfl⟩

end Engine

/-- What holds after each of the two steps of a request for hints, of which the second may not be taken, holds after
the request if it is not about hints. -/
theorem Engine.after_hintsFor {P : Engine → Prop} (hhints : ∀ (e : Engine) hints, P e → P { e with hints })
    {file : String} {t : Token} {e : Engine} (hreason : P ((reason? file t).run e).2)
    (hstyle : permits true ((reason? file t).run e).1 = true →
      P ((styleFor file t).run ((reason? file t).run e).2).2) :
    P ((hintsFor file t).run e).2 := by
  unfold hintsFor
  rw [Work.run_bind, run_isFormattable]
  generalize (reason? file t).run e = found at hreason hstyle ⊢
  split
  · exact hhints _ _ hreason
  rename_i hpermits
  have hstyle := hstyle (by simpa using hpermits)
  rw [Work.run_bind]
  generalize (styleFor file t).run found.2 = asked at hstyle ⊢
  split
  · exact hhints _ _ hstyle
  · exact hhints _ _ hstyle
  · exact hstyle

/-- A relation that holds across requests, and does not look at the hints that are remembered, holds across what
follows the first step of a request for hints. -/
theorem AcrossRequests.hintsFor_of_reason? {R : Engine → Engine → Prop} (h : AcrossRequests R)
    (hhints : ∀ (e : Engine) hints, R e { e with hints }) (file : String) (t : Token) (e : Engine) :
    R ((Engine.reason? file t).run e).2 ((Engine.hintsFor file t).run e).2 :=
  Engine.after_hintsFor (fun e hints hr => h.trans hr (hhints e hints)) (h.refl _) fun _ => h.moves_styleFor file t _

namespace Engine

theorem progress_hintsFor (file : String) (t : Token) (e : Engine) :
    ((reason? file t).run e).2.Progress ((hintsFor file t).run e).2 ∧ e.Progress ((hintsFor file t).run e).2 := by
  have hrest := acrossRequests_progress.hintsFor_of_reason?
    (fun e hints => Progress.of_same rfl rfl rfl rfl rfl) file t e
  exact ⟨hrest, (acrossRequests_progress.moves_reason? file t e).trans hrest⟩

/-- The memory follows the requests of a run. -/
theorem follows_lives {past : History} {e : Engine} (h : past.Follows e.hints) (ms : List Moment) :
    History.Follows (past ++ e.history ms) (e.lives ms).hints ∧ (e.lives ms).settings = e.settings := by
  induction ms generalizing past e with
  | nil =>
    rw [history, List.append_nil]
    exact ⟨h, rfl⟩
  | cons m ms ih =>
    cases m with
    | turn x =>
      obtain ⟨hhints, hsettings⟩ := hints_happen { e with desk := x.desk, agenda := x.agenda } x.happening
      have hturn : past.Follows (e.turn x).hints := by
        rw [turn, hhints]
        exact h
      obtain ⟨hfollows, hafter⟩ := ih hturn
      exact ⟨hfollows, hafter.trans hsettings⟩
    | ask a =>
      obtain ⟨-, hhints⟩ := run_hintsFor a.file a.token (e.facing a)
      have hask : History.Follows (past ++ [(key a.file, (e.facing a).standing a.file a.token)])
          (e.live (.ask a)).hints := by
        rw [live, hhints]
        exact h.remember a.file _
      obtain ⟨hfollows, hafter⟩ := ih hask
      rw [List.append_assoc] at hfollows
      exact ⟨hfollows, hafter.trans (progress_hintsFor a.file a.token (e.facing a)).2.settings⟩

/-! ### How files stand along a run -/

/-- An engine on a host, which found the tool where the host says or did not look for it yet. -/
structure Mirrors (s : Settings) (h : Host) (e : Engine) : Prop where
  settings : e.settings = s
  files : e.host.files = h.files
  tool : e.host.tool = h.tool
  executables : e.host.executables = h.executables
  directory : e.host.directory = h.directory
  found : e.foundTool = none ∨ e.foundTool = h.executable? "clang-format"

variable {answers : Answers} {hosts : List Host} {paths tools : List String} {s : Settings} {h : Host} {e : Engine}

theorem mirrors_start (s : Settings) (h : Host) : Mirrors s h { host := h, settings := s } :=
  ⟨rfl, rfl, rfl, rfl, rfl, Or.inl rfl⟩

theorem Mirrors.of_progress {after : Engine} (hm : Mirrors s h e) (hp : e.Progress after) : Mirrors s h after := by
  refine ⟨hp.settings.trans hm.settings, hp.files.trans hm.files, hp.tool.trans hm.tool,
    hp.executables.trans hm.executables, hp.directory.trans hm.directory, ?_⟩
  rcases hp.found with hfound | hfound
  · rw [hfound]
    exact hm.found
  · right
    rw [hfound, Host.executable?, hm.executables, Host.executable?]

theorem Mirrors.located_eq (hm : Mirrors s h e) : e.located = ({ host := h, settings := s } : Engine).located := by
  unfold located
  rw [hm.settings]
  cases s.clangFormatPath with
  | some given =>
    dsimp only [Host.absolute]
    rw [hm.files, hm.directory]
  | none =>
    dsimp only [Host.executable?]
    rw [hm.executables, hm.files]
    rcases hm.found with hfound | hfound
    · rw [hfound]
    · rw [hfound, Host.executable?]
      cases (h.executables.find? (·.1 = "clang-format")).map (·.2) with
      | none => rfl
      | some found =>
        rw [Option.filter_some]
        split <;> rfl

theorem acrossRequests_sound : AcrossRequests fun e after => after.host.files = e.host.files ∧
    (e.styles.chains.Sound e.host.files.has → after.styles.chains.Sound after.host.files.has) where
  refl _ := ⟨rfl, id⟩
  trans h h' := ⟨h'.1.trans h.1, h'.2 ∘ h.2⟩
  debug e line := by
    obtain ⟨err, h⟩ := e.host.debug_eq line
    rw [h]
    exact ⟨rfl, id⟩
  search _ _ := ⟨rfl, id⟩
  call _ _ := ⟨rfl, id⟩
  agenda _ _ := ⟨rfl, id⟩
  chains _ path := ⟨rfl, fun h => (h.configFiles path).2⟩
  remember e path dependencies result := by
    refine ⟨rfl, fun h => ?_⟩
    rw [chains_remember]
    exact h

/-- How a file stands follows from the settings and the host, unless the request is cancelled. -/
theorem Mirrors.standing_eq (hm : Mirrors s h e) (ht : e.Tracks answers hosts paths tools)
    (hs : Steady answers hosts paths tools) (hc : e.styles.chains.Sound e.host.files.has) (hh : h ∈ hosts)
    {file : String} (hp : file ∈ paths) {t : Token} (hu : ((hintsFor file t).run e).2.desk.isCancelled t = false) :
    e.standing file t = ({ host := h, settings := s } : Engine).standing file 0 := by
  have hfresh : Tracks answers hosts paths tools { host := h, settings := s } := by
    refine ⟨⟨h, hh, rfl, rfl, rfl, rfl⟩, hm.settings ▸ ht.places, ?_, ?_⟩
    · intro _ p hp
      cases hp
    · intro entry hentry
      cases hentry
  have hchain : ((configFiles file).run e).1.isEmpty =
      ((configFiles file).run ({ host := h, settings := s } : Engine)).1.isEmpty := by
    have hnow := (hc.configFiles file).1
    have hnew := ((Chains.sound_empty h.files.has).configFiles file).1
    rw [← hm.files] at hnew
    have hempty := congrArg List.isEmpty (hnow.trans hnew.symm)
    rw [List.isEmpty_map, List.isEmpty_map] at hempty
    change _ = (Chains.configFiles h.files {} file).1.isEmpty
    rw [← hm.files]
    exact hempty
  unfold standing
  rw [hm.settings, ← hchain]
  have hreason := run_reason? file t e
  rw [hm.settings] at hreason
  split
  · rfl
  rename_i henabled
  split
  · rfl
  rename_i hfile
  split
  · rfl
  rename_i hconfigured
  rw [if_neg henabled, if_neg hfile, if_neg hconfigured] at hreason
  have hnew : ((styleFor file 0).run ({ host := h, settings := s } : Engine)).1 =
      styleBy answers h.files file ({ host := h, settings := s } : Engine).located := hfresh.freshStyle_eq hs hp
  rw [hnew]
  rcases (ht.styleFor hs hc hp t).1 with hstyle | ⟨-, hcancelled⟩
  · rw [hstyle, hm.located_eq, hm.files]
  · have hend := (progress_hintsFor file t e).1.cancelled t
    rw [hreason, hu] at hend
    cases hend hcancelled

theorem Tracks.reason? (ht : e.Tracks answers hosts paths tools) (hs : Steady answers hosts paths tools)
    (hc : e.styles.chains.Sound e.host.files.has) {file : String} (hp : file ∈ paths) (t : Token) :
    ((Engine.reason? file t).run e).2.Tracks answers hosts paths tools := by
  rw [run_reason?]
  split
  · exact ht
  split
  · exact ht
  split
  · exact ht.of_progress (acrossRequests_progress.chains e file) ht.kept
  · exact (ht.styleFor hs hc hp t).2

theorem Tracks.hintsFor (ht : e.Tracks answers hosts paths tools) (hs : Steady answers hosts paths tools)
    (hc : e.styles.chains.Sound e.host.files.has) {file : String} (hp : file ∈ paths) (t : Token) :
    ((Engine.hintsFor file t).run e).2.Tracks answers hosts paths tools := by
  have hmid := ht.reason? hs hc hp t
  have hsound := (acrossRequests_sound.moves_reason? file t e).2 hc
  refine after_hintsFor (fun e hints h => ⟨h.host, h.places, h.found, h.kept⟩) hmid fun _ => ?_
  exact (hmid.styleFor hs hsound hp t).2

theorem Mirrors.events (hm : Mirrors s h e) (batch : List FileEvent) :
    Mirrors s h ((handleEvents batch).run e).2 := by
  obtain ⟨err, hrun⟩ := run_handleEvents batch e
  rw [hrun]
  exact ⟨hm.settings, hm.files, hm.tool, hm.executables, hm.directory, hm.found⟩

theorem Mirrors.happen (hm : Mirrors s h e) (x : Happening)
    (hx : ∀ host ∈ x.host?, host.executable? "clang-format" = h.executable? "clang-format") :
    Mirrors s (x.host?.getD h) (e.happen x) := by
  cases x with
  | query q => exact hm.of_progress (progress_ask q e)
  | change host => exact ⟨hm.settings, rfl, rfl, rfl, rfl, hx host rfl ▸ hm.found⟩
  | events batch => exact hm.events batch

theorem Mirrors.live (hm : Mirrors s h e) (m : Moment)
    (hplace : ∀ host ∈ m.host?, host.executable? "clang-format" = h.executable? "clang-format") :
    Mirrors s (m.host?.getD h) (e.live m) := by
  cases m with
  | turn x =>
    have hset : Mirrors s h { e with desk := x.desk, agenda := x.agenda } :=
      ⟨hm.settings, hm.files, hm.tool, hm.executables, hm.directory, hm.found⟩
    exact hset.happen x.happening hplace
  | ask a =>
    have hset : Mirrors s h (e.facing a) :=
      ⟨hm.settings, hm.files, hm.tool, hm.executables, hm.directory, hm.found⟩
    exact hset.of_progress (progress_hintsFor a.file a.token (e.facing a)).2

theorem sound_hintsFor (hc : e.styles.chains.Sound e.host.files.has) (file : String) (t : Token) :
    ((Engine.hintsFor file t).run e).2.styles.chains.Sound ((Engine.hintsFor file t).run e).2.host.files.has := by
  have hreason := (acrossRequests_sound.moves_reason? file t e).2 hc
  exact (acrossRequests_sound.hintsFor_of_reason? (fun e hints => ⟨rfl, id⟩) file t e).2 hreason

/-- Also along requests for hints chains stay walks, and what is announced stays so. -/
theorem faithful_live {base : FileStore} {heard : List FileEvent} {m : Moment} {rest : List Happening}
    (hf : e.styles.chains.Faithful base heard) (ha : AnnouncedFrom base e.host.files heard (m.happening :: rest)) :
    ∃ base' heard', (e.live m).styles.chains.Faithful base' heard' ∧
      AnnouncedFrom base' (e.live m).host.files heard' rest := by
  cases m with
  | turn x =>
    have hset : ({ e with desk := x.desk, agenda := x.agenda } : Engine).styles.chains.Faithful base heard := hf
    exact faithful_happen hset ha
  | ask a =>
    have hsound : (e.facing a).styles.chains.Sound (e.facing a).host.files.has := hf.sound_of_announced ha.1
    have hkept : (e.live (.ask a)).styles.chains.Sound (e.live (.ask a)).host.files.has :=
      sound_hintsFor hsound a.file a.token
    have hsame : (e.live (.ask a)).host.files = e.host.files :=
      (progress_hintsFor a.file a.token (e.facing a)).2.files
    refine ⟨e.host.files, [], ⟨?_, fun h => by cases h⟩, ?_⟩
    · rw [← hsame]
      exact hkept
    · rw [hsame]
      exact ha.2

/-- Along a run without cancelled requests in which changes are announced and the tool stays at its place, files
stand as they do for engines that are new. -/
theorem history_eq_foreseen {base : FileStore} {heard : List FileEvent} {ms : List Moment} (hm : Mirrors s h e)
    (ht : e.Tracks answers hosts paths tools) (hs : Steady answers hosts paths tools) (hh : h ∈ hosts)
    (hplace : ∀ a ∈ hosts, ∀ b ∈ hosts, a.executable? "clang-format" = b.executable? "clang-format")
    (hf : e.styles.chains.Faithful base heard) (ha : AnnouncedFrom base e.host.files heard (ms.map (·.happening)))
    (hhosts : ∀ m ∈ ms, ∀ host ∈ m.host?, host ∈ hosts) (hfiles : ∀ m ∈ ms, ∀ file ∈ m.file?, file ∈ paths)
    (hu : e.Uncancelled ms) : e.history ms = History.foreseen s h ms := by
  induction ms generalizing e h base heard with
  | nil => rfl
  | cons m ms ih =>
    have hlater : ∀ m ∈ ms, ∀ host ∈ m.host?, host ∈ hosts := fun m hm => hhosts m (List.mem_cons_of_mem _ hm)
    have hasked : ∀ m ∈ ms, ∀ file ∈ m.file?, file ∈ paths := fun m hm => hfiles m (List.mem_cons_of_mem _ hm)
    have hhost : ∀ host ∈ m.host?, host ∈ hosts := hhosts m List.mem_cons_self
    have hnext : m.host?.getD h ∈ hosts := by
      cases hx : m.host? with
      | none => exact hh
      | some host => exact hhost host hx
    have hmirrors := hm.live m fun host hx => hplace host (hhost host hx) h hh
    obtain ⟨base', heard', hfaithful, hannounced⟩ := faithful_live hf ha
    cases m with
    | turn x =>
      have hset : Tracks answers hosts paths tools { e with desk := x.desk, agenda := x.agenda } :=
        ⟨ht.host, ht.places, ht.found, ht.kept⟩
      have hfset : ({ e with desk := x.desk, agenda := x.agenda } : Engine).styles.chains.Faithful base heard := hf
      exact ih hmirrors (hset.happen hs hfset ha hhost (hfiles _ List.mem_cons_self)) hnext hfaithful hannounced
        hlater hasked hu
    | ask a =>
      have hset : Tracks answers hosts paths tools (e.facing a) := ⟨ht.host, ht.places, ht.found, ht.kept⟩
      have hmset : Mirrors s h (e.facing a) :=
        ⟨hm.settings, hm.files, hm.tool, hm.executables, hm.directory, hm.found⟩
      have hsound : (e.facing a).styles.chains.Sound (e.facing a).host.files.has := hf.sound_of_announced ha.1
      have hfile : a.file ∈ paths := hfiles _ List.mem_cons_self a.file rfl
      rw [history, History.foreseen, hmset.standing_eq hset hs hsound hh hfile hu.1]
      exact congrArg (List.cons _)
        (ih hmirrors (hset.hintsFor hs hsound hfile a.token) hh hfaithful hannounced hlater hasked hu.2)

theorem history_append (e : Engine) (ms : List Moment) (a : Asking) : e.history (ms ++ [.ask a]) =
    e.history ms ++ [(key a.file, ((e.lives ms).facing a).standing a.file a.token)] := by
  induction ms generalizing e with
  | nil => rfl
  | cons m ms ih =>
    cases m with
    | turn x => exact ih (e.turn x)
    | ask b => exact congrArg (List.cons _) (ih (e.live (.ask b)))

def hostsOf (h : Host) (ms : List Moment) : List Host := h :: ms.filterMap (·.host?)

def filesOf (ms : List Moment) : List String := ms.filterMap (·.file?)

/-- A request for hints at the end of a run answers what follows from how its file stood at its own requests,
unless five hundred other files were served since it was.  A file is sound whose style resolves and applies, and
then its hints are what that style says; it is broken if its style has a validation error.  Where changes are
announced, the tool stays at its place and answers from the files alone, and nothing is cancelled, each file stands
as it would if there had been no other request at all. -/
theorem hintsFor_along (s : Settings) (h : Host) (ms : List Moment) (a : Asking) :
    let start : Engine := { host := h, settings := s }
    let now := (start.lives ms).facing a
    let past := start.history ms
    ((past.servedSince (key a.file)).length < 500 → ((hintsFor a.file a.token).run now).1 =
      (now.standing a.file a.token).answer s.fallback (past.good? (key a.file))) ∧
    (∀ hints, now.standing a.file a.token = .sound hints ↔ now.Eligible a.file ∧
      ∃ style, ((styleFor a.file a.token).run now).1 = .ok style ∧
        (style.language? = some "Cpp" → isCppFile a.file = true) ∧ hints.Reflects style) ∧
    (now.standing a.file a.token = .broken ↔ now.Eligible a.file ∧
      ∃ description position, ((styleFor a.file a.token).run now).1 = .error (.validation description position)) ∧
    ∀ answers, AnnouncedFrom h.files h.files [] ((ms ++ [Moment.ask a]).map (·.happening)) →
      Steady answers (hostsOf h ms) (filesOf (ms ++ [.ask a])) ((hostsOf h ms).flatMap (·.places s)) →
      (∀ host ∈ hostsOf h ms, host.executable? "clang-format" = h.executable? "clang-format") →
      start.Uncancelled (ms ++ [.ask a]) →
      past ++ [(key a.file, now.standing a.file a.token)] = History.foreseen s h (ms ++ [.ask a]) := by
  dsimp only
  refine ⟨?_, fun hints => standing_eq_sound_iff, standing_eq_broken_iff, ?_⟩
  · intro hfew
    obtain ⟨hfollows, hsettings⟩ := follows_lives (e := { host := h, settings := s }) History.follows_empty ms
    rw [List.nil_append] at hfollows
    obtain ⟨hanswer, -⟩ := run_hintsFor a.file a.token ((({ host := h, settings := s } : Engine).lives ms).facing a)
    have hmemory := hfollows.get?_eq hfew
    rw [hanswer]
    dsimp only [facing]
    rw [hsettings, hmemory]
  · intro answers hannounced hsteady hplace huncancelled
    have hstart : Tracks answers (hostsOf h ms) (filesOf (ms ++ [.ask a])) ((hostsOf h ms).flatMap (·.places s))
        { host := h, settings := s } := by
      refine ⟨⟨h, List.mem_cons_self, rfl, rfl, rfl, rfl⟩, ?_, ?_, ?_⟩
      · intro host hhost p hp
        exact List.mem_flatMap.mpr ⟨host, hhost, hp⟩
      · intro _ p hp
        cases hp
      · intro entry hentry
        cases hentry
    rw [← history_append]
    refine history_eq_foreseen (mirrors_start s h) hstart hsteady List.mem_cons_self ?_ (Chains.faithful_empty _ _)
      hannounced ?_ ?_ huncancelled
    · intro x hx y hy
      exact (hplace x hx).trans (hplace y hy).symm
    · intro m hm host hhost
      rcases List.mem_append.mp hm with hm | hm
      · exact List.mem_cons_of_mem _ (List.mem_filterMap.mpr ⟨m, hm, hhost⟩)
      · obtain rfl := List.mem_singleton.mp hm
        cases hhost
    · intro m hm file hfile
      exact List.mem_filterMap.mpr ⟨m, hm, hfile⟩

def brittleConfig : List UInt8 := Utf8.encode "ColumnLimit: 100\nIndentWidth: 4\nTabWidth: 8\nUseTab: Always\n"

def brittleHints : Hints := ⟨some 100, some 4, some 8, true⟩

def brittleRun (config : List UInt8) : Except Failure ToolOutput :=
  if config = brittleConfig then .ok ⟨0, config, []⟩
  else .ok ⟨1, [], Utf8.encode "/.clang-format:1:1: error: unknown key\n"⟩

def brittleHost : Host where
  files := ({} : FileStore).write "/.clang-format" brittleConfig
  executables := [("clang-format", "/tool")]
  tool := some fun files _ _ => { result := brittleRun ((files.content? (key "/.clang-format")).getD []) }

def brittleChanged : Host :=
  { brittleHost with files := brittleHost.files.write "/.clang-format" (Utf8.encode "a: b\n") }

def brittleSettings : Settings := { fallback := .maxConsecutive 2 }

def brittleAsking : Asking := ⟨{}, [], "/a.c", 0⟩

def brittleOther : Asking := ⟨{}, [], "/b.c", 0⟩

/-- After requests for two files the configuration is broken, and two more requests for the first one are made. -/
def brittleMoments : List Moment :=
  [.ask brittleAsking, .ask brittleOther, .turn ⟨{}, [], .change brittleChanged⟩,
    .turn ⟨{}, [], .events [.changed "/.clang-format"]⟩, .ask brittleAsking, .ask brittleAsking]

def brittleAnswers : Answers := fun _ configs _ _ => brittleRun ((configs.head?.bind (·.2)).getD [])

theorem eq_of_mem_hostsOf_brittle {h : Host} (hh : h ∈ hostsOf brittleHost brittleMoments) :
    h = brittleHost ∨ h = brittleChanged := by
  simpa [hostsOf, brittleMoments, Moment.host?, Happening.host?] using hh

theorem eq_of_mem_places_brittle : ∀ tool ∈ (hostsOf brittleHost brittleMoments).flatMap (·.places brittleSettings),
    tool = "/tool" := by
  decide +kernel

theorem announced_brittleChanged : Announced brittleHost.files brittleChanged.files [.changed "/.clang-format"] := by
  have hrecorded : brittleChanged.files.events = brittleHost.files.events ++ [.changed "/.clang-format"] := by
    decide +kernel
  exact announced_write hrecorded (List.Subset.refl _)

theorem announced_brittle (last : Asking) : AnnouncedFrom brittleHost.files brittleHost.files []
    ((brittleMoments ++ [Moment.ask last]).map (·.happening)) :=
  ⟨announced_self _ _, announced_self _ _, announced_brittleChanged, announced_self _ _, announced_self _ _, trivial⟩

/-- The tool of these hosts answers from the configuration alone. -/
theorem steady_brittle {paths : List String} (hpaths : ∀ path ∈ paths, path = "/a.c" ∨ path = "/b.c") :
    Steady brittleAnswers (hostsOf brittleHost brittleMoments) paths
      ((hostsOf brittleHost brittleMoments).flatMap (·.places brittleSettings)) := by
  refine ⟨?_, ?_, ?_, ?_⟩
  · intro h hh path hpath tool htool number
    obtain rfl := eq_of_mem_places_brittle tool htool
    have htool : h.tool = brittleHost.tool := by
      rcases eq_of_mem_hostsOf_brittle hh with rfl | rfl <;> rfl
    have hbytes : (h.files.content? (key "/.clang-format")).getD [] =
        ((configContents h.files path).head?.bind (·.2)).getD [] := by
      rcases hpaths path hpath with rfl | rfl <;> rcases eq_of_mem_hostsOf_brittle hh with rfl | rfl <;> decide +kernel
    rw [Host.dump, Host.answer, htool, brittleAnswers, ← hbytes]
    rfl
  · intro h hh h' hh'
    refine stampsTell_of_files ?_
    rcases eq_of_mem_hostsOf_brittle hh with rfl | rfl <;> rcases eq_of_mem_hostsOf_brittle hh' with rfl | rfl <;>
      decide +kernel
  · intro a ha b hb hkey
    have hapart : key "/a.c" ≠ key "/b.c" := by decide +kernel
    rcases hpaths a ha with rfl | rfl <;> rcases hpaths b hb with rfl | rfl
    · rfl
    · exact absurd hkey hapart
    · exact absurd hkey.symm hapart
    · rfl
  · intro a ha b hb _
    rw [eq_of_mem_places_brittle a ha, eq_of_mem_places_brittle b hb]

/-- The third broken request for the first file is one too many, while the second one is still served with its last
good hints.  These are what the style says. -/
theorem hintsFor_along_broken :
    let start : Engine := { host := brittleHost, settings := brittleSettings }
    let past := start.history brittleMoments
    let now := start.lives brittleMoments
    past = [(key "/a.c", .sound brittleHints), (key "/b.c", .sound brittleHints), (key "/a.c", .broken),
        (key "/a.c", .broken)] ∧
      ((hintsFor "/a.c" 0).run (now.facing brittleAsking)).1 = none ∧
      ((hintsFor "/b.c" 0).run (now.facing brittleOther)).1 = some brittleHints ∧
      ∃ style, ((styleFor "/a.c" 0).run (start.facing brittleAsking)).1 = .ok style ∧ brittleHints.Reflects style := by
  have hidle (e : Engine) (file : String) : (e.live (.ask ⟨{}, [], file, 0⟩)).desk.isCancelled 0 = false := by
    have hdesk := ((progress_hintsFor file 0 (e.facing ⟨{}, [], file, 0⟩)).2.idle rfl).1
    exact congrArg (·.isCancelled 0) hdesk
  have halong (last : Asking) (hlast : last = brittleAsking ∨ last = brittleOther) :
      let past := ({ host := brittleHost, settings := brittleSettings } : Engine).history brittleMoments
      let now := (({ host := brittleHost, settings := brittleSettings } : Engine).lives brittleMoments).facing last
      past ++ [(key last.file, now.standing last.file last.token)] =
          History.foreseen brittleSettings brittleHost (brittleMoments ++ [.ask last]) ∧
        ((past.servedSince (key last.file)).length < 500 → ((hintsFor last.file last.token).run now).1 =
          (now.standing last.file last.token).answer brittleSettings.fallback (past.good? (key last.file))) := by
    have hpaths : ∀ path ∈ filesOf (brittleMoments ++ [.ask last]), path = "/a.c" ∨ path = "/b.c" := by
      rcases hlast with rfl | rfl <;> decide +kernel
    obtain ⟨hanswer, -, -, hstands⟩ := hintsFor_along brittleSettings brittleHost brittleMoments last
    refine ⟨hstands brittleAnswers (announced_brittle last) (steady_brittle hpaths) ?_ ?_, hanswer⟩
    · intro host hhost
      rcases eq_of_mem_hostsOf_brittle hhost with rfl | rfl <;> rfl
    · rcases hlast with rfl | rfl <;> exact ⟨hidle _ _, hidle _ _, hidle _ _, hidle _ _, hidle _ _, trivial⟩
  let past : History := [(key "/a.c", .sound brittleHints), (key "/b.c", .sound brittleHints), (key "/a.c", .broken),
    (key "/a.c", .broken)]
  have hlists : History.foreseen brittleSettings brittleHost (brittleMoments ++ [.ask brittleAsking]) =
        past ++ [(key "/a.c", .broken)] ∧
      History.foreseen brittleSettings brittleHost (brittleMoments ++ [.ask brittleOther]) =
        past ++ [(key "/b.c", .broken)] := by decide +kernel
  have hlist (last : Asking) (hlast : last = brittleAsking ∨ last = brittleOther) :
      History.foreseen brittleSettings brittleHost (brittleMoments ++ [.ask last]) =
        past ++ [(key last.file, .broken)] := by
    rcases hlast with rfl | rfl
    · exact hlists.1
    · exact hlists.2
  have hbroken (last : Asking) (hlast : last = brittleAsking ∨ last = brittleOther) :
      ({ host := brittleHost, settings := brittleSettings } : Engine).history brittleMoments = past ∧
        ((past.servedSince (key last.file)).length < 500 → ((hintsFor last.file last.token).run
          ((({ host := brittleHost, settings := brittleSettings } : Engine).lives brittleMoments).facing last)).1 =
            Standing.broken.answer brittleSettings.fallback (past.good? (key last.file))) := by
    obtain ⟨hforeseen, hanswer⟩ := halong last hlast
    obtain ⟨hpast, hstands⟩ := List.append_inj' (hforeseen.trans (hlist last hlast)) (by simp)
    have hnow := (Prod.mk.inj (List.singleton_inj.mp hstands)).2
    rw [hpast, hnow] at hanswer
    exact ⟨hpast, hanswer⟩
  obtain ⟨hpast, hfirst⟩ := hbroken brittleAsking (Or.inl rfl)
  obtain ⟨-, hsecond⟩ := hbroken brittleOther (Or.inr rfl)
  obtain ⟨-, hsound, -⟩ := hintsFor_along brittleSettings brittleHost [] brittleAsking
  have hstart := (Prod.mk.inj (List.cons.inj hpast).1).2
  obtain ⟨-, style, hstyle, -, hreflects⟩ := (hsound brittleHints).mp hstart
  have hnone : Standing.broken.answer brittleSettings.fallback (past.good? (key "/a.c")) = none := by decide +kernel
  have hsome : Standing.broken.answer brittleSettings.fallback (past.good? (key "/b.c")) = some brittleHints := by
    decide +kernel
  exact ⟨hpast, (hfirst (by decide +kernel)).trans hnone, (hsecond (by decide +kernel)).trans hsome, style, hstyle,
    hreflects⟩

end Engine
end Restyle
