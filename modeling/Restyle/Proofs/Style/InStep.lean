import Restyle.Proofs.Style.HintRuns
import Restyle.Proofs.Style.Keys

/-! # Engines in step

Two engines on the same host may have looked for the tool at different times, and may spell the paths of their
chains differently.  As long as the tool is at its place and what they remember is true, they answer requests for
styles in the same way, make the same calls, and stay alike.
-/
namespace Restyle
open Restyle.Path Work

namespace Work

variable {α β : Type} {R : Engine → Engine → Prop}

/-- From related engines two works come to the same answer and to related engines. -/
def Lockstep (R : Engine → Engine → Prop) (w w' : Work α) : Prop :=
  ∀ e e', R e e' → (w'.run e').1 = (w.run e).1 ∧ R (w.run e).2 (w'.run e').2

theorem Lockstep.pure (a : α) : Lockstep R (Pure.pure a) (Pure.pure a) := fun _ _ h => ⟨rfl, h⟩

theorem Lockstep.bind {w w' : Work α} {f f' : α → Work β} (hw : Lockstep R w w')
    (hf : ∀ a, Lockstep R (f a) (f' a)) : Lockstep R (w >>= f) (w' >>= f') := by
  intro e e' h
  obtain ⟨hanswer, hafter⟩ := hw e e' h
  rw [run_bind, run_bind, hanswer]
  exact hf _ _ _ hafter

theorem Lockstep.get_bind {f f' : Engine → Work β} (hf : ∀ e e', R e e' → Lockstep R (f e) (f' e')) :
    Lockstep R (MonadState.get >>= f) (MonadState.get >>= f') := fun e e' h => hf e e' h e e' h

theorem Lockstep.modify {f f' : Engine → Engine} (hf : ∀ e e', R e e' → R (f e) (f' e')) :
    Lockstep R (modify f : Work Unit) (modify f') := fun e e' h => ⟨rfl, hf e e' h⟩

end Work

/-! ### What is remembered, however it is spelled -/

namespace Recent

variable {α β : Type}

def map (f : α → β) (r : Recent α) : Recent β := ⟨r.entries.map fun entry => (entry.1, f entry.2)⟩

theorem get?_map (f : α → β) (r : Recent α) (path : String) : (r.map f).get? path = (r.get? path).map f := by
  simp [get?, map, List.find?_map, Function.comp_def]

theorem map_insert (f : α → β) (r : Recent α) (path : String) (value : α) :
    (r.insert path value).map f = (r.map f).insert path (f value) := by
  have herase : ((r.map f).erase path).entries = (r.erase path).entries.map fun entry => (entry.1, f entry.2) := by
    simp [erase, map, List.filter_map, Function.comp_def]
  unfold insert
  rw [herase]
  generalize (r.erase path).entries = others
  dsimp only
  rw [List.length_map]
  split <;> simp [map]

end Recent

def DependencyKey.outline (a : DependencyKey) : List (Key × Option Nat) × Option (Key × Option Nat) × Nat :=
  (a.configFiles.map stamped, a.tool.map stamped, a.generation)

theorem DependencyKey.same_iff_outline (a b : DependencyKey) : a.same b = true ↔ a.outline = b.outline := by
  rw [same_iff, outline, outline, Prod.mk.injEq, Prod.mk.injEq]

namespace StyleMemory

def outlines (m : StyleMemory) :
    Recent ((List (Key × Option Nat) × Option (Key × Option Nat) × Nat) × Except Failure Style) :=
  m.styles.map fun entry => (entry.1.outline, entry.2)

variable {m m' : StyleMemory} {dependencies dependencies' : DependencyKey}

theorem remembered?_eq (m : StyleMemory) (path : String) (dependencies : DependencyKey) :
    m.remembered? path dependencies =
      (m.outlines.get? path).bind fun entry => if entry.1 = dependencies.outline then some entry.2 else none := by
  rw [outlines, Recent.get?_map, remembered?]
  cases m.styles.get? path with
  | none => rfl
  | some entry => simp [← DependencyKey.same_iff_outline]

theorem remembered?_congr (h : m'.outlines = m.outlines) (hkey : dependencies'.outline = dependencies.outline)
    (path : String) : m'.remembered? path dependencies' = m.remembered? path dependencies := by
  rw [remembered?_eq, remembered?_eq, h, hkey]

theorem outlines_remember_congr (h : m'.outlines = m.outlines) (hkey : dependencies'.outline = dependencies.outline)
    (path : String) (result : Except Failure Style) :
    (m'.remember path dependencies' result).outlines = (m.remember path dependencies result).outlines := by
  rcases styles_remember path dependencies result with ⟨rfl, hsame⟩ | ⟨hne, hinsert⟩
  · exact h
  · rcases styles_remember path dependencies' result with ⟨rfl, -⟩ | ⟨-, hinsert'⟩
    · exact absurd rfl hne
    · rw [outlines, hinsert', outlines, hinsert, Recent.map_insert, Recent.map_insert, hkey]
      exact congrArg (Recent.insert · path (dependencies.outline, result)) h

end StyleMemory

namespace Engine

variable {e e' : Engine} {path : String}

/-! ### Calls -/

def pace (e : Engine) : Option Tool × FileStore × Nat × Desk × List DeskStep :=
  (e.host.tool, e.host.files, e.host.calls.size, e.desk, e.agenda)

def Paced (e e' : Engine) : Prop := e'.pace = e.pace

theorem Paced.of_eq (h : Paced e e') : e'.host.tool = e.host.tool ∧ e'.host.files = e.host.files ∧
    e'.host.calls.size = e.host.calls.size ∧ e'.desk = e.desk ∧ e'.agenda = e.agenda := by
  simpa only [Paced, pace, Prod.mk.injEq] using h

theorem pace_debug (e : Engine) (line : String) : pace { e with host := e.host.debug line } = e.pace := by
  obtain ⟨err, h⟩ := e.host.debug_eq line
  rw [h]
  rfl

theorem lockstep_debug (line line' : String) : Lockstep Paced (debug line) (debug line') := by
  refine Lockstep.modify fun e e' h => ?_
  rw [Paced, pace_debug, pace_debug]
  exact h

theorem lockstep_isCancelled (t : Token) : Lockstep Paced (isCancelled t) (isCancelled t) := by
  intro e e' h
  obtain ⟨-, -, -, hdesk, -⟩ := h.of_eq
  exact ⟨congrArg (·.isCancelled t) hdesk, h⟩

theorem lockstep_runAgenda : Lockstep Paced runAgenda runAgenda := by
  intro e e' h
  obtain ⟨htool, hfiles, hcalls, hdesk, hagenda⟩ := h.of_eq
  have hafter : (runAgenda.run e').2.desk = (runAgenda.run e).2.desk := by
    rw [desk_runAgenda, desk_runAgenda, hdesk, hagenda]
  refine ⟨rfl, ?_⟩
  rw [Paced, pace, pace, hafter]
  exact Prod.ext htool (Prod.ext hfiles (Prod.ext hcalls rfl))

theorem lockstep_call (c : Invocation) (input : Option (List UInt8)) (t : Token) :
    Lockstep Paced (call c input t) (call c input t) := by
  unfold call
  refine (lockstep_isCancelled t).bind fun cancelled => ?_
  split
  · exact Lockstep.pure _
  refine Lockstep.get_bind fun before before' h => ?_
  obtain ⟨htool, hfiles, hcalls, -, -⟩ := h.of_eq
  refine Lockstep.bind (Lockstep.modify fun e e' h => ?_) fun _ => ?_
  · obtain ⟨htool, hfiles, hcalls, hdesk, hagenda⟩ := h.of_eq
    simp [Paced, pace, *]
  rw [htool, hfiles, hcalls]
  split
  · exact Lockstep.pure _
  dsimp only
  split
  · refine lockstep_runAgenda.bind fun _ => (lockstep_isCancelled t).bind fun cancelled => ?_
    split <;> exact Lockstep.pure _
  · exact Lockstep.pure _

theorem lockstep_invoke (c : Invocation) (input : Option (List UInt8)) (t : Token) :
    Lockstep Paced (invoke c input t) (invoke c input t) := by
  unfold invoke
  refine (lockstep_debug _ _).bind fun _ => (lockstep_call c input t).bind fun result => ?_
  split <;> exact (lockstep_debug _ _).bind fun _ => Lockstep.pure _

/-- The style of a path is asked for in the same way if the tool is the same and there are configuration files. -/
theorem lockstep_computeStyle {key key' : DependencyKey}
    (hconfigs : key'.configFiles.isEmpty = key.configFiles.isEmpty)
    (htool : key'.tool = key.tool) (path : String) (t : Token) :
    Lockstep Paced (computeStyle path key t) (computeStyle path key' t) := by
  unfold computeStyle
  rw [hconfigs, htool]
  split
  · exact Lockstep.pure _
  split
  · exact Lockstep.pure _
  refine Lockstep.bind (fun e e' h => ?_) fun command => (lockstep_invoke _ _ _).bind fun result => ?_
  · obtain ⟨-, hfiles, -⟩ := h.of_eq
    refine ⟨?_, h⟩
    change e'.host.placed path _ = e.host.placed path _
    rw [Host.placed, Host.placed, hfiles]
  split
  · exact Lockstep.pure _
  · split <;> exact Lockstep.pure _

/-! ### Engines that are alike -/

/-- Engines with the same surroundings, which made as many calls, took as many events in and remember the same
styles. -/
structure Alike (e e' : Engine) : Prop where
  surroundings : e'.surroundings = e.surroundings
  calls : e'.host.calls.size = e.host.calls.size
  generation : e'.styles.generation = e.styles.generation
  outlines : e'.styles.outlines = e.styles.outlines

/-- Alike engines at the time of a request: the desk and the agenda are the same, and so is where the tool is, and
all chains are walks. -/
structure InStep (e e' : Engine) : Prop extends Alike e e' where
  desk : e'.desk = e.desk
  agenda : e'.agenda = e.agenda
  located : e'.located = e.located
  sound : e.styles.chains.Sound e.host.files.has
  sound' : e'.styles.chains.Sound e'.host.files.has

theorem Alike.of_eq (h : Alike e e') : e'.settings = e.settings ∧ e'.host.files = e.host.files ∧
    e'.host.executables = e.host.executables ∧ e'.host.directory = e.host.directory ∧ e'.host.tool = e.host.tool := by
  simpa only [Engine.surroundings, Prod.mk.injEq] using h.surroundings

theorem InStep.paced (h : InStep e e') : Paced e e' := by
  obtain ⟨-, hfiles, -, -, htool⟩ := h.of_eq
  exact Prod.ext htool (Prod.ext hfiles (Prod.ext h.calls (Prod.ext h.desk h.agenda)))

def Requested (e after : Engine) : Prop :=
  e.Progress after ∧ after.basis = e.basis ∧
    (e.styles.chains.Sound e.host.files.has → after.styles.chains.Sound after.host.files.has)

theorem acrossRequests_requested : AcrossRequests Requested where
  refl e := ⟨acrossRequests_progress.refl e, rfl, id⟩
  trans h h' := ⟨h.1.trans h'.1, h'.2.1.trans h.2.1, h'.2.2 ∘ h.2.2⟩
  debug e line := ⟨acrossRequests_progress.debug e line, acrossRequests_basis.debug e line,
    (acrossRequests_sound.debug e line).2⟩
  search e h := ⟨acrossRequests_progress.search e h, acrossRequests_basis.search e h, id⟩
  call e c := ⟨acrossRequests_progress.call e c, rfl, id⟩
  agenda e h := ⟨acrossRequests_progress.agenda e h, rfl, id⟩
  chains e path := ⟨acrossRequests_progress.chains e path, rfl, (acrossRequests_sound.chains e path).2⟩
  remember e path key result := ⟨acrossRequests_progress.remember e path key result,
    acrossRequests_basis.remember e path key result, (acrossRequests_sound.remember e path key result).2⟩

/-- After a request two engines are in step if they were before, made the same calls and remember the same. -/
theorem InStep.of_requested (h : InStep e e') {after after' : Engine} (hr : e.Requested after)
    (hr' : e'.Requested after') (hpaced : after.Paced after') (houtlines : after'.styles.outlines = after.styles.outlines) :
    InStep after after' := by
  obtain ⟨hprogress, hbasis, hsound⟩ := hr
  obtain ⟨hprogress', hbasis', hsound'⟩ := hr'
  obtain ⟨-, -, hcalls, hdesk, hagenda⟩ := hpaced.of_eq
  simp only [basis, Prod.mk.injEq] at hbasis hbasis'
  refine ⟨⟨?_, hcalls, ?_, houtlines⟩, hdesk, hagenda, ?_, hsound h.sound, hsound' h.sound'⟩
  · rw [hprogress'.surroundings, hprogress.surroundings, h.surroundings]
  · rw [hbasis'.2.2, hbasis.2.2, h.generation]
  · rw [hbasis'.2.1, hbasis.2.1, h.located]

/-! ### Requests in step -/

theorem acrossSearches_pace : AcrossSearches fun e after => after.pace = e.pace ∧ after.styles = e.styles where
  refl _ := ⟨rfl, rfl⟩
  trans h h' := ⟨h'.1.trans h.1, h'.2.trans h.2⟩
  debug e line := ⟨e.pace_debug line, rfl⟩
  search _ _ := ⟨rfl, rfl⟩

theorem InStep.map_key_chain (h : InStep e e') (path : String) :
    (e'.chain path).map key = (e.chain path).map key := by
  obtain ⟨-, hfiles, -⟩ := h.of_eq
  have hwalk : (e.chain path).map key = (configWalk e.host.files path).map key := (h.sound.configFiles path).1
  have hwalk' : (e'.chain path).map key = (configWalk e'.host.files path).map key := (h.sound'.configFiles path).1
  rw [hwalk, hwalk', hfiles]

theorem InStep.chain_isEmpty (h : InStep e e') (path : String) :
    (e'.chain path).isEmpty = (e.chain path).isEmpty := by
  have hempty := congrArg List.isEmpty (h.map_key_chain path)
  rwa [List.isEmpty_map, List.isEmpty_map] at hempty

theorem InStep.keyNow (h : InStep e e') (path : String) : (e'.keyNow path).outline = (e.keyNow path).outline ∧
    (e'.keyNow path).configFiles.isEmpty = (e.keyNow path).configFiles.isEmpty ∧
    (e'.keyNow path).tool = (e.keyNow path).tool := by
  obtain ⟨-, hfiles, -⟩ := h.of_eq
  refine ⟨?_, ?_, ?_⟩
  · refine ((DependencyKey.same_iff_outline _ _).mp (keyNow_same_iff.mpr ⟨?_, ?_, ?_, h.generation⟩)).symm
    · exact h.map_key_chain path
    · rw [h.located]
    · exact fun p _ => by rw [hfiles]
  · have hempty := h.chain_isEmpty path
    rw [Engine.keyNow, Engine.keyNow, List.isEmpty_map, List.isEmpty_map]
    exact hempty
  · simp only [Engine.keyNow, h.located, hfiles]

theorem pace_dependencyKey (path : String) (e : Engine) : ((dependencyKey path).run e).2.pace = e.pace := by
  unfold dependencyKey
  rw [Work.run_bind, Work.run_bind, Work.run_bind]
  exact (acrossSearches_pace.moves_toolPath _).1

theorem outlines_dependencyKey (path : String) (e : Engine) :
    ((dependencyKey path).run e).2.styles.outlines = e.styles.outlines := by
  rw [styles_dependencyKey]
  rfl

theorem InStep.dependencyKey (h : InStep e e') (path : String) :
    InStep ((Engine.dependencyKey path).run e).2 ((Engine.dependencyKey path).run e').2 := by
  refine h.of_requested (acrossRequests_requested.moves_dependencyKey path e)
    (acrossRequests_requested.moves_dependencyKey path e') ?_ ?_
  · rw [Paced, pace_dependencyKey, pace_dependencyKey]
    exact h.paced
  · rw [outlines_dependencyKey, outlines_dependencyKey]
    exact h.outlines

theorem InStep.computeStyle (h : InStep e e') {dependencies dependencies' : DependencyKey}
    (hconfigs : dependencies'.configFiles.isEmpty = dependencies.configFiles.isEmpty)
    (htool : dependencies'.tool = dependencies.tool) (path : String) (t : Token) :
    ((Engine.computeStyle path dependencies' t).run e').1 = ((Engine.computeStyle path dependencies t).run e).1 ∧
      InStep ((Engine.computeStyle path dependencies t).run e).2
        ((Engine.computeStyle path dependencies' t).run e').2 := by
  obtain ⟨hresult, hpaced⟩ := lockstep_computeStyle hconfigs htool path t e e' h.paced
  refine ⟨hresult, h.of_requested (acrossRequests_requested.moves_computeStyle path dependencies t e)
    (acrossRequests_requested.moves_computeStyle path dependencies' t e') hpaced ?_⟩
  have hstyles : ((Engine.computeStyle path dependencies t).run e).2.styles = e.styles :=
    acrossCalls_styles.moves_computeStyle path dependencies t e
  have hstyles' : ((Engine.computeStyle path dependencies' t).run e').2.styles = e'.styles :=
    acrossCalls_styles.moves_computeStyle path dependencies' t e'
  rw [hstyles, hstyles', h.outlines]

theorem InStep.remember (h : InStep e e') {dependencies dependencies' : DependencyKey}
    (hkey : dependencies'.outline = dependencies.outline) (path : String) (result : Except Failure Style) :
    InStep { e with styles := e.styles.remember path dependencies result }
      { e' with styles := e'.styles.remember path dependencies' result } :=
  h.of_requested (acrossRequests_requested.remember e path dependencies result)
    (acrossRequests_requested.remember e' path dependencies' result) h.paced
    (StyleMemory.outlines_remember_congr h.outlines hkey path result)

/-- Engines in step answer requests for styles alike and stay in step. -/
theorem lockstep_styleFor (path : String) (t : Token) : Lockstep InStep (styleFor path t) (styleFor path t) := by
  intro e e' h
  have hmid := h.dependencyKey path
  obtain ⟨hkey, hconfigs, htool⟩ := h.keyNow path
  rw [run_styleFor, run_styleFor, StyleMemory.remembered?_congr h.outlines hkey path]
  split
  · exact ⟨rfl, hmid⟩
  · obtain ⟨hresult, hafter⟩ := hmid.computeStyle hconfigs htool path t
    refine ⟨hresult, ?_⟩
    dsimp only
    rw [hresult]
    exact hafter.remember hkey path _

theorem lockstep_isConfigured (path : String) : Lockstep InStep (isConfigured path) (isConfigured path) := by
  intro e e' h
  refine ⟨congrArg (!·) (h.chain_isEmpty path), ?_⟩
  exact h.of_requested (acrossRequests_requested.chains e path) (acrossRequests_requested.chains e' path) h.paced
    h.outlines

theorem lockstep_reason? (file : String) (t : Token) : Lockstep InStep (reason? file t) (reason? file t) := by
  unfold reason?
  refine Lockstep.get_bind fun e e' h => ?_
  rw [h.of_eq.1]
  split
  · exact Lockstep.pure _
  split
  · exact Lockstep.pure _
  refine (lockstep_isConfigured file).bind fun configured => ?_
  split
  · exact Lockstep.pure _
  refine (lockstep_styleFor file t).bind fun result => ?_
  split
  · split <;> exact Lockstep.pure _
  all_goals exact Lockstep.pure _

theorem InStep.standing_eq (h : InStep e e') (file : String) (t : Token) :
    e'.standing file t = e.standing file t := by
  unfold standing
  rw [h.of_eq.1, (lockstep_styleFor file t e e' h).1]
  have hempty := h.chain_isEmpty file
  rw [chain, chain] at hempty
  rw [hempty]

theorem InStep.of_hints (h : InStep e e') (hints hints' : HintMemory) :
    InStep { e with hints } { e' with hints := hints' } :=
  ⟨⟨h.surroundings, h.calls, h.generation, h.outlines⟩, h.desk, h.agenda, h.located, h.sound, h.sound'⟩

/-- Engines that remember different hints stay in step all the same. -/
theorem InStep.hintsFor (h : InStep e e') (file : String) (t : Token) :
    InStep ((Engine.hintsFor file t).run e).2 ((Engine.hintsFor file t).run e').2 := by
  obtain ⟨hreason, hmid⟩ := lockstep_reason? file t e e' h
  unfold Engine.hintsFor
  simp only [Work.run_bind, run_isFormattable, hreason]
  split
  · exact hmid.of_hints _ _
  obtain ⟨hstyle, hafter⟩ := lockstep_styleFor file t _ _ hmid
  simp only [Work.run_bind, hstyle]
  split
  · exact hafter.of_hints _ _
  · exact hafter.of_hints _ _
  · exact hafter

theorem InStep.ask (h : InStep e e') (q : Query) : InStep (q.ask e) (q.ask e') := by
  have hchains (path : String) : InStep ((configFiles path).run e).2 ((configFiles path).run e').2 :=
    (lockstep_isConfigured path e e' h).2
  cases q with
  | configFiles path => exact hchains path
  | isConfigured path => exact hchains path
  | styleFile path => exact hchains path
  | dependencyKey path => exact h.dependencyKey path
  | styleFor path token => exact (lockstep_styleFor path token e e' h).2

/-! ### Runs in step -/

/-- An engine on a host in the course of a run in which changes are announced. -/
structure OnCourse (s : Settings) (h : Host) (e : Engine) (rest : List Moment) : Prop where
  mirrors : Mirrors s h e
  announced : ∃ base heard, e.styles.chains.Faithful base heard ∧
    AnnouncedFrom base e.host.files heard (rest.map (·.happening))

variable {s : Settings} {h : Host} {m : Moment} {rest : List Moment}

theorem onCourse_start (ha : AnnouncedFrom h.files h.files [] (rest.map (·.happening))) :
    OnCourse s h { host := h, settings := s } rest :=
  ⟨mirrors_start s h, h.files, [], Chains.faithful_empty _ _, ha⟩

theorem OnCourse.live (hc : OnCourse s h e (m :: rest))
    (hplace : ∀ host ∈ m.host?, host.executable? "clang-format" = h.executable? "clang-format") :
    OnCourse s (m.host?.getD h) (e.live m) rest := by
  obtain ⟨base, heard, hfaithful, hannounced⟩ := hc.announced
  exact ⟨hc.mirrors.live m hplace, faithful_live hfaithful hannounced⟩

/-- What announces a run also announces it without a query that is left out. -/
theorem announcedFrom_skip {base mid files : FileStore} {earlier heard : List FileEvent} {hs : List Happening}
    (hmid : Announced base mid earlier) (ha : AnnouncedFrom mid files heard hs) :
    AnnouncedFrom base files (earlier ++ heard) hs := by
  induction hs generalizing base mid files earlier heard with
  | nil => trivial
  | cons x hs ih =>
    cases x with
    | query q =>
      refine ⟨fun k hk hne => ?_, ha.2⟩
      by_cases hsame : (base.find? k).isSome = (mid.find? k).isSome
      · obtain ⟨event, hmem, hnames⟩ := ha.1 k hk (hsame ▸ hne)
        exact ⟨event, List.mem_append_right _ hmem, hnames⟩
      · obtain ⟨event, hmem, hnames⟩ := hmid k hk hsame
        exact ⟨event, List.mem_append_left _ hmem, hnames⟩
    | change host => exact ih hmid ha
    | events batch =>
      have hrest := ih hmid ha
      rw [← List.append_assoc] at hrest
      exact hrest

theorem OnCourse.skip {a : Asking} (hc : OnCourse s h e (.ask a :: rest)) : OnCourse s h e rest := by
  obtain ⟨base, heard, hfaithful, hannounced, hrest⟩ := hc.announced
  refine ⟨hc.mirrors, base, heard, hfaithful, ?_⟩
  have hskip := announcedFrom_skip hannounced hrest
  rwa [List.append_nil] at hskip

theorem OnCourse.sound {q : Query} (hc : OnCourse s h e (m :: rest)) (hm : m.happening = .query q) :
    e.styles.chains.Sound e.host.files.has := by
  obtain ⟨base, heard, hfaithful, hannounced⟩ := hc.announced
  rw [List.map_cons, hm] at hannounced
  exact hfaithful.sound_of_announced hannounced.1

/-- Alike engines on one host are in step at a query. -/
theorem Alike.inStep (ha : Alike e e') {q : Query} (hm : m.happening = .query q) (hc : OnCourse s h e (m :: rest))
    (hc' : OnCourse s h e' (m :: rest)) (desk : Desk) (agenda : List DeskStep) :
    InStep { e with desk, agenda } { e' with desk, agenda } := by
  have hlocated : e'.located = e.located := hc'.mirrors.located_eq.trans hc.mirrors.located_eq.symm
  exact ⟨⟨ha.surroundings, ha.calls, ha.generation, ha.outlines⟩, rfl, rfl, hlocated, hc.sound hm, hc'.sound hm⟩

theorem Alike.live (ha : Alike e e') (hc : OnCourse s h e (m :: rest)) (hc' : OnCourse s h e' (m :: rest)) :
    Alike (e.live m) (e'.live m) := by
  cases m with
  | ask a => exact ((ha.inStep rfl hc hc' a.desk a.agenda).hintsFor a.file a.token).toAlike
  | turn x =>
    obtain ⟨hsettings, hfiles, hexecutables, hdirectory, htool⟩ := ha.of_eq
    obtain ⟨desk, agenda, happening⟩ := x
    cases happening with
    | query q => exact ((ha.inStep rfl hc hc' desk agenda).ask q).toAlike
    | change host =>
      refine ⟨?_, rfl, ha.generation, ha.outlines⟩
      exact congrArg (·, host.files, host.executables, host.directory, host.tool) hsettings
    | events batch =>
      simp only [Engine.live, turn, happen]
      obtain ⟨err, hrun⟩ := run_handleEvents batch { e with desk, agenda }
      obtain ⟨err', hrun'⟩ := run_handleEvents batch { e' with desk, agenda }
      rw [hrun, hrun']
      refine ⟨ha.surroundings, ha.calls, ?_, ha.outlines⟩
      simp only [StyleMemory.afterEvents, ha.generation]

/-- In the course of a run files stand alike for alike engines. -/
theorem Alike.history_eq {ms : List Moment} (ha : Alike e e') (hc : OnCourse s h e ms) (hc' : OnCourse s h e' ms)
    (hplace : ∀ m ∈ ms, ∀ host ∈ m.host?, host.executable? "clang-format" = h.executable? "clang-format") :
    e'.history ms = e.history ms := by
  induction ms generalizing e e' h with
  | nil => rfl
  | cons m ms ih =>
    have hnow := hplace m List.mem_cons_self
    have hrest : (e'.live m).history ms = (e.live m).history ms := by
      refine ih (ha.live hc hc') (hc.live hnow) (hc'.live hnow) fun m' hm' host hhost => ?_
      rw [hplace m' (List.mem_cons_of_mem _ hm') host hhost]
      cases hm : m.host? with
      | none => rfl
      | some next => exact (hnow next hm).symm
    cases m with
    | turn x => exact hrest
    | ask a =>
      have hstanding := (ha.inStep rfl hc hc' a.desk a.agenda).standing_eq a.file a.token
      exact List.cons_eq_cons.mpr ⟨congrArg (Prod.mk (key a.file)) hstanding, hrest⟩

end Engine
end Restyle
