import Restyle.Proofs.Style.InStep

/-! # Cancelled requests for hints

A request whose token is cancelled before it begins calls no tool and remembers no style, so no other request finds
a file in another state because of it.  What it leaves behind is an entry of the memory of hints: it counts as a
request for a file that is refused, or that stands as its remembered style says.
-/
namespace Restyle
open Restyle.Path Work

namespace Engine

variable {e : Engine} {path file : String} {t : Token}

/-! ### Work that is cancelled before it begins -/

theorem run_call_of_isCancelled (ht : e.desk.isCancelled t = true) (c : Invocation) (input : Option (List UInt8)) :
    (call c input t).run e = (.error .cancelled, e) := by
  unfold call
  rw [Work.run_bind]
  split
  · rfl
  · rename_i hnot
    exact absurd ht hnot

theorem run_invoke_of_isCancelled (ht : e.desk.isCancelled t = true) (c : Invocation) (input : Option (List UInt8)) :
    ∃ err, (invoke c input t).run e = (.error .cancelled, { e with host := { e.host with err } }) := by
  obtain ⟨first, last, hrun⟩ := run_invoke c input t e
  dsimp only at hrun
  rw [hrun, run_call_of_isCancelled (by exact ht)]
  obtain ⟨err, herr⟩ := e.host.debug_eq first
  obtain ⟨err', herr'⟩ := (e.host.debug first).debug_eq last
  refine ⟨err', ?_⟩
  dsimp only
  rw [herr', herr]

/-- There is nothing to be done for a style, or the token is found to be cancelled. -/
theorem run_computeStyle_of_isCancelled (ht : e.desk.isCancelled t = true) (dependencies : DependencyKey)
    (path : String) : ∃ f err, (computeStyle path dependencies t).run e =
      (.error f, { e with host := { e.host with err } }) ∧
      (f = .cancelled ∨ dependencies.tool = none ∨ dependencies.configFiles.isEmpty = true) ∧
      ∀ file, Standing.ofStyle file (.error f) = .refused := by
  unfold computeStyle
  split
  · rename_i hnone
    exact ⟨.notConfigured, e.host.err, rfl, .inr (.inr hnone), fun _ => rfl⟩
  split
  · rename_i htool
    exact ⟨.toolNotFound, e.host.err, rfl, .inr (.inl htool), fun _ => rfl⟩
  · rename_i tool stamp _
    obtain ⟨err, hrun⟩ :=
      run_invoke_of_isCancelled ht (e.host.placed path (Invocation.dumpConfig tool path false)) none
    have hplaced : (inDirectoryOf path (Invocation.dumpConfig tool path false)).run e =
        (e.host.placed path (Invocation.dumpConfig tool path false), e) := rfl
    refine ⟨.cancelled, err, ?_, .inl rfl, fun _ => rfl⟩
    rw [Work.run_bind, hplaced, Work.run_bind, hrun]
    rfl

/-- A style that is asked for with a cancelled token is one that is remembered, or there is none. -/
theorem style_of_isCancelled (ht : e.desk.isCancelled t = true) (path : String) :
    e.styles.remembered? path (e.keyNow path) = some ((styleFor path t).run e).1 ∨
      ∀ file, Standing.ofStyle file ((styleFor path t).run e).1 = .refused := by
  have hmid : ((dependencyKey path).run e).2.desk.isCancelled t = true :=
    (acrossRequests_progress.moves_dependencyKey path e).cancelled t ht
  rw [run_styleFor]
  cases e.styles.remembered? path (e.keyNow path) with
  | some result => exact .inl rfl
  | none =>
    obtain ⟨f, err, hrun, -, hrefused⟩ := run_computeStyle_of_isCancelled hmid (e.keyNow path) path
    right
    dsimp only
    rw [hrun]
    exact hrefused

def tally (e : Engine) : (Option Tool × FileStore × Nat × Desk × List DeskStep) ×
    Recent ((List (Key × Option Nat) × Option (Key × Option Nat) × Nat) × Except Failure Style) :=
  (e.pace, e.styles.outlines)

/-- If there is a tool, such a request changes neither. -/
theorem tally_styleFor (ht : e.desk.isCancelled t = true) (htool : (e.keyNow path).tool ≠ none)
    (hconfigs : (e.keyNow path).configFiles.isEmpty = false) : ((styleFor path t).run e).2.tally = e.tally := by
  have hmid : ((dependencyKey path).run e).2.desk.isCancelled t = true :=
    (acrossRequests_progress.moves_dependencyKey path e).cancelled t ht
  have hkey : ((dependencyKey path).run e).2.tally = e.tally :=
    Prod.ext (pace_dependencyKey path e) (outlines_dependencyKey path e)
  rw [run_styleFor]
  cases e.styles.remembered? path (e.keyNow path) with
  | some result => exact hkey
  | none =>
    obtain ⟨f, err, hrun, hcause, -⟩ := run_computeStyle_of_isCancelled hmid (e.keyNow path) path
    obtain rfl := hcause.resolve_right (by simp [htool, hconfigs])
    dsimp only
    rw [hrun]
    exact hkey

/-! ### The request for hints -/

theorem tally_reason? (ht : e.desk.isCancelled t = true) (htool : e.located ≠ none) (file : String) :
    let found := (reason? file t).run e
    found.2.tally = e.tally ∧ (permits true found.1 = true →
      found.2 = ((styleFor file t).run e).2 ∧ (e.keyNow file).configFiles.isEmpty = false) := by
  have hkeyTool : (e.keyNow file).tool ≠ none := by simp [keyNow, htool]
  dsimp only
  rw [run_reason?]
  split
  · exact ⟨rfl, fun h => by cases h⟩
  split
  · exact ⟨rfl, fun h => by cases h⟩
  split
  · exact ⟨rfl, fun h => by cases h⟩
  · rename_i hchain
    have hconfigs : (e.keyNow file).configFiles.isEmpty = false := by
      rw [keyNow, List.isEmpty_map]
      exact Bool.eq_false_iff.mpr hchain
    exact ⟨tally_styleFor ht hkeyTool hconfigs, fun _ => ⟨rfl, hconfigs⟩⟩

theorem tally_hintsFor (ht : e.desk.isCancelled t = true) (htool : e.located ≠ none) (file : String) :
    ((hintsFor file t).run e).2.tally = e.tally := by
  obtain ⟨hmid, hpermits⟩ := tally_reason? ht htool file
  refine after_hintsFor (P := fun after => after.tally = e.tally) (fun _ _ h => h) hmid fun hpermitted => ?_
  obtain ⟨hstate, hconfigs⟩ := hpermits hpermitted
  rw [hstate] at hmid ⊢
  -- The style is asked for once more, and depends on the same as before.
  have hcancelled : ((styleFor file t).run e).2.desk.isCancelled t = true :=
    (acrossRequests_progress.moves_styleFor file t e).cancelled t ht
  have hkey : ((styleFor file t).run e).2.keyNow file = e.keyNow file := by
    rw [← run_dependencyKey, ← run_dependencyKey, run_dependencyKey_again]
  refine (tally_styleFor hcancelled ?_ ?_).trans hmid
  · rw [hkey]
    simp [keyNow, htool]
  · rw [hkey, hconfigs]

/-- A request that is cancelled before it begins leaves the engine as it is, up to its hints. -/
theorem alike_hintsFor (ht : e.desk.isCancelled t = true) (htool : e.located ≠ none) (file : String) :
    Alike e ((hintsFor file t).run e).2 := by
  have htally := tally_hintsFor ht htool file
  have hbasis := acrossRequests_basis.moves_reason? file t e
  have hrest := acrossRequests_basis.hintsFor_of_reason? (fun _ _ => rfl) file t e
  obtain ⟨hpace, houtlines⟩ := Prod.mk.inj htally
  exact ⟨(progress_hintsFor file t e).2.surroundings, congrArg (·.2.2.1) hpace,
    congrArg (·.2.2) (hrest.trans hbasis), houtlines⟩

/-- It finds the file refused, or as its remembered style says. -/
theorem standing_of_isCancelled (ht : e.desk.isCancelled t = true) (file : String) : e.standing file t = .refused ∨
    ∃ result, e.styles.remembered? file (e.keyNow file) = some result ∧ e.standing file t = .ofStyle file result := by
  unfold standing
  split
  · exact .inl rfl
  split
  · exact .inl rfl
  split
  · exact .inl rfl
  · rcases style_of_isCancelled ht file with hremembered | hrefused
    · exact .inr ⟨_, hremembered, rfl⟩
    · exact .inl (hrefused file)

/-! ### Engines without a tool -/

/-- Whether no remembered result lets a file be formatted. -/
def Unserved (m : StyleMemory) : Prop :=
  ∀ entry ∈ m.styles.entries, ∀ file, Standing.ofStyle file entry.2.2 = .refused

theorem unserved_styleFor (hu : Unserved e.styles) (htool : e.located = none) (path : String) (t : Token) :
    (∀ file, Standing.ofStyle file ((styleFor path t).run e).1 = .refused) ∧
      Unserved ((styleFor path t).run e).2.styles := by
  rcases styleFor_cases path t e with ⟨hremembered, hstyles, -⟩ | ⟨-, hstyles, hanswer⟩
  · obtain ⟨stored, hmem, -⟩ := StyleMemory.mem_of_remembered? hremembered
    refine ⟨hu _ hmem, ?_⟩
    rw [Unserved, hstyles]
    exact hu
  · have hrefused : ∀ file, Standing.ofStyle file ((styleFor path t).run e).1 = .refused := by
      rcases hanswer with ⟨hcancelled, -⟩ | hfresh
      · rw [hcancelled]
        exact fun _ => rfl
      · rw [hfresh, run_dependencyKey, Style.ofKey, keyNow, htool]
        split <;> exact fun _ => rfl
    refine ⟨hrefused, ?_⟩
    rw [Unserved, hstyles]
    rcases StyleMemory.styles_remember path ((dependencyKey path).run e).1 ((styleFor path t).run e).1 with
      ⟨-, hsame⟩ | ⟨-, hinsert⟩
    · rw [hsame]
      exact hu
    · rw [hinsert]
      intro entry hentry
      rcases Recent.mem_insert hentry with hold | rfl
      · exact hu entry hold
      · exact hrefused

theorem unserved_hintsFor (hu : Unserved e.styles) (htool : e.located = none) (file : String) (t : Token) :
    e.standing file t = .refused ∧ Unserved ((hintsFor file t).run e).2.styles := by
  obtain ⟨hrefused, hserved⟩ := unserved_styleFor hu htool file t
  constructor
  · unfold standing
    split
    · rfl
    split
    · rfl
    split
    · rfl
    · exact hrefused file
  have hmid : Unserved ((reason? file t).run e).2.styles := by
    rw [run_reason?]
    split
    · exact hu
    split
    · exact hu
    split
    · exact hu
    · exact hserved
  have hlocated : ((reason? file t).run e).2.located = none :=
    (congrArg (·.2.1) (acrossRequests_basis.moves_reason? file t e)).trans htool
  exact after_hintsFor (P := fun after => Unserved after.styles) (fun _ _ h => h) hmid fun _ =>
    (unserved_styleFor hmid hlocated file t).2

theorem unserved_live {s : Settings} {h : Host} (hm : Mirrors s h e)
    (htool : ({ host := h, settings := s } : Engine).located = none) (hu : Unserved e.styles) (m : Moment) :
    Unserved (e.live m).styles := by
  have hlocated : e.located = none := hm.located_eq.trans htool
  cases m with
  | ask a => exact (unserved_hintsFor (e := e.facing a) hu hlocated a.file a.token).2
  | turn x =>
    obtain ⟨desk, agenda, happening⟩ := x
    cases happening with
    | change host => exact hu
    | events batch =>
      obtain ⟨err, hrun⟩ := run_handleEvents batch { e with desk, agenda }
      simp only [live, turn, happen, hrun]
      exact hu
    | query q =>
      cases q with
      | configFiles path => exact hu
      | isConfigured path => exact hu
      | styleFile path => exact hu
      | dependencyKey path =>
        have hstyles := congrArg StyleMemory.styles (styles_dependencyKey path { e with desk, agenda })
        intro entry hentry
        exact hu entry (hstyles ▸ hentry)
      | styleFor path token => exact (unserved_styleFor (e := { e with desk, agenda }) hu hlocated path token).2

def refusals (ms : List Moment) : History := ms.filterMap fun
  | .ask a => some (key a.file, .refused)
  | .turn _ => none

/-! ### Runs with a cancelled request -/

def toolPlaces (s : Settings) (h : Host) : Option String × Option String :=
  (h.executable? "clang-format", ({ host := h, settings := s } : Engine).located)

variable {s : Settings} {h : Host} {e' : Engine} {m : Moment} {ms rest : List Moment}

theorem toolPlaces_getD (hplace : ∀ host ∈ m.host?, toolPlaces s host = toolPlaces s h) :
    toolPlaces s (m.host?.getD h) = toolPlaces s h := by
  cases hm : m.host? with
  | none => rfl
  | some next => exact hplace next hm

/-- Along a run on hosts without the tool no request is served. -/
theorem history_eq_refusals (hm : Mirrors s h e) (hu : Unserved e.styles) (htool : (toolPlaces s h).2 = none)
    (hplace : ∀ m ∈ ms, ∀ host ∈ m.host?, toolPlaces s host = toolPlaces s h) : e.history ms = refusals ms := by
  induction ms generalizing e h with
  | nil => rfl
  | cons m ms ih =>
    have hnow := hplace m List.mem_cons_self
    have hnext := toolPlaces_getD hnow
    have hrest : (e.live m).history ms = refusals ms := by
      refine ih (hm.live m fun host hhost => congrArg Prod.fst (hnow host hhost)) (unserved_live hm htool hu m) ?_ ?_
      · rw [hnext]
        exact htool
      · rw [hnext]
        exact fun m hm => hplace m (List.mem_cons_of_mem _ hm)
    cases m with
    | turn x => exact hrest
    | ask a =>
      have hstanding := (unserved_hintsFor (e := e.facing a) hu (hm.located_eq.trans htool) a.file a.token).1
      exact List.cons_eq_cons.mpr ⟨congrArg (Prod.mk (key a.file)) hstanding, hrest⟩

theorem OnCourse.lives (hc : OnCourse s h e (ms ++ rest))
    (hplace : ∀ m ∈ ms, ∀ host ∈ m.host?, toolPlaces s host = toolPlaces s h) :
    ∃ h', toolPlaces s h' = toolPlaces s h ∧ OnCourse s h' (e.lives ms) rest ∧
      ((toolPlaces s h).2 = none → Unserved e.styles → Unserved (e.lives ms).styles) := by
  induction ms generalizing e h with
  | nil => exact ⟨h, rfl, hc, fun _ => id⟩
  | cons m ms ih =>
    have hnow := hplace m List.mem_cons_self
    have hnext := toolPlaces_getD hnow
    have hlive := hc.live fun host hhost => congrArg Prod.fst (hnow host hhost)
    obtain ⟨h', hsame, hlast, hunserved⟩ := ih hlive fun m' hm' host hhost =>
      (hplace m' (List.mem_cons_of_mem _ hm') host hhost).trans hnext.symm
    refine ⟨h', hsame.trans hnext, hlast, fun htool hu => ?_⟩
    exact hunserved (hnext ▸ htool) (unserved_live hc.mirrors htool hu m)

/-- After a request that is cancelled before it begins, files stand at all later requests as they do without it. -/
theorem history_cancelled {c : Asking} (hcancelled : c.desk.isCancelled c.token = true)
    (hc : OnCourse s h e (.ask c :: ms)) (hu : (toolPlaces s h).2 = none → Unserved e.styles)
    (hplace : ∀ m ∈ ms, ∀ host ∈ m.host?, toolPlaces s host = toolPlaces s h) :
    (e.live (.ask c)).history ms = e.history ms := by
  have hlater : OnCourse s h (e.live (.ask c)) ms := hc.live fun host hhost => by cases hhost
  cases htool : (toolPlaces s h).2 with
  | none =>
    have hserved := unserved_live hc.mirrors htool (hu htool) (.ask c)
    rw [history_eq_refusals hlater.mirrors hserved htool hplace,
      history_eq_refusals hc.mirrors (hu htool) htool hplace]
  | some tool =>
    have hlocated : (e.facing c).located ≠ none := by
      rw [show (e.facing c).located = some tool from hc.mirrors.located_eq.trans htool]
      exact Option.some_ne_none tool
    have halike := alike_hintsFor (e := e.facing c) hcancelled hlocated c.file
    have hsame : Alike e (e.live (.ask c)) := ⟨halike.surroundings, halike.calls, halike.generation, halike.outlines⟩
    exact hsame.history_eq hc.skip hlater fun m hm host hhost => congrArg Prod.fst (hplace m hm host hhost)

/-- Runs at whose requests the files stand alike leave the same hints if they start with the same. -/
theorem hints_lives_congr (hhistory : e'.history ms = e.history ms) (hhints : e'.hints = e.hints) :
    (e'.lives ms).hints = (e.lives ms).hints := by
  induction ms generalizing e e' with
  | nil => exact hhints
  | cons m ms ih =>
    cases m with
    | turn x =>
      have hrest : (e'.turn x).history ms = (e.turn x).history ms := hhistory
      refine ih hrest ?_
      have hturn (e : Engine) : (e.live (.turn x)).hints = e.hints :=
        (hints_happen { e with desk := x.desk, agenda := x.agenda } x.happening).1
      rw [hturn, hturn, hhints]
    | ask a =>
      obtain ⟨hstanding, hrest⟩ := List.cons_eq_cons.mp hhistory
      have hrest : (e'.live (.ask a)).history ms = (e.live (.ask a)).history ms := hrest
      refine ih hrest ?_
      have hask (e : Engine) : (e.live (.ask a)).hints = _ := (run_hintsFor a.file a.token (e.facing a)).2
      rw [hask, hask, (Prod.mk.inj hstanding).2]
      exact congrArg (Standing.remember · a.file _) hhints

end Engine

namespace History

variable {past rest : History} {file : Key}

theorem good?_append : good? (past ++ rest) file =
    (rest.filter (·.1 = file)).foldl (fun good? request => request.2.next good?) (past.good? file) := by
  rw [good?, List.filter_append, List.foldl_append]
  rfl

/-- What was remembered before a request that is served or refused does not count after it. -/
theorem foldl_next_eq {requests : History} (h : ∃ request ∈ requests, request.2 ≠ .broken)
    (good? other? : Option GoodHints) :
    requests.foldl (fun good? request => request.2.next good?) good? =
      requests.foldl (fun good? request => request.2.next good?) other? := by
  induction requests generalizing good? other? with
  | nil => simp at h
  | cons first requests ih =>
    rw [List.foldl_cons, List.foldl_cons]
    obtain ⟨request, hmem, hstands⟩ := h
    rcases List.mem_cons.mp hmem with rfl | hlater
    · cases hstanding : request.2 with
      | sound hints => rfl
      | refused => rfl
      | broken => exact absurd hstanding hstands
    · exact ih ⟨request, hlater, hstands⟩ _ _

/-- One more request leaves no trace in the hints of other files, nor where it changes nothing or a later one is
served or refused. -/
theorem good?_insert {other : Key} {trace : Standing} (h : other = file →
    trace.next (past.good? file) = past.good? file ∨ ∃ request ∈ rest, request.1 = file ∧ request.2 ≠ .broken) :
    good? (past ++ (other, trace) :: rest) file = good? (past ++ rest) file := by
  rw [good?_append, good?_append, List.filter_cons]
  by_cases hfile : other = file
  · rw [if_pos (by simpa using hfile), List.foldl_cons]
    rcases h hfile with hsame | ⟨request, hmem, hrequest, hstands⟩
    · rw [hsame]
    · refine foldl_next_eq ⟨request, List.mem_filter.mpr ⟨hmem, by simpa using hrequest⟩, hstands⟩ _ _
  · rw [if_neg (by simpa using hfile)]

end History

namespace Engine

/-- What a request leaves behind that is cancelled before it begins.  Where changes are announced and the tool stays
at its place, files stand at all other requests as they do without it.  It counts as a request that is refused, or
that finds the file as its remembered style says.  So without good hints of its file it changes no answer at all; and
else no other answers than those about that file that are given while the configuration is broken, before the file is
served or refused again. -/
theorem hintsFor_around_cancelled (s : Settings) (h : Host) (before between : List Moment) (c a : Asking)
    (hcancelled : c.desk.isCancelled c.token = true)
    (hannounced : AnnouncedFrom h.files h.files []
      ((before ++ Moment.ask c :: (between ++ [.ask a])).map (·.happening)))
    (hplace : ∀ host ∈ hostsOf h (before ++ between), toolPlaces s host = toolPlaces s h) :
    let start : Engine := { host := h, settings := s }
    let without := start.lives before
    let along := without.live (.ask c)
    let trace := (without.facing c).standing c.file c.token
    let standing := ((without.lives between).facing a).standing a.file a.token
    let past := start.history before
    let rest := without.history between
    let answer (e : Engine) := ((hintsFor a.file a.token).run ((e.lives between).facing a)).1
    along.history (between ++ [.ask a]) = rest ++ [(key a.file, standing)] ∧
    (trace = .refused ∨ ∃ result, (without.facing c).styles.remembered? c.file ((without.facing c).keyNow c.file) =
      some result ∧ trace = .ofStyle c.file result) ∧
    (trace.remember without.hints c.file = without.hints → answer along = answer without) ∧
    ((History.servedSince (past ++ rest) (key a.file)).length < 500 →
      (History.servedSince (past ++ (key c.file, trace) :: rest) (key a.file)).length < 500 →
      answer along = answer without ∨
        key a.file = key c.file ∧ standing = .broken ∧
          (∀ request ∈ rest, request.1 = key c.file → request.2 = .broken) ∧
          trace.next (past.good? (key c.file)) ≠ past.good? (key c.file)) := by
  have hhost (ms : List Moment) (hsub : ms ⊆ before ++ between) :
      ∀ m ∈ ms, ∀ host ∈ m.host?, toolPlaces s host = toolPlaces s h := by
    intro m hm host hhost
    exact hplace host (List.mem_cons_of_mem _ (List.mem_filterMap.mpr ⟨m, hsub hm, hhost⟩))
  have hbetween : ∀ m ∈ between ++ [.ask a], ∀ host ∈ m.host?, toolPlaces s host = toolPlaces s h := by
    intro m hm host hx
    rcases List.mem_append.mp hm with hm | hm
    · exact hhost between (List.subset_append_right _ _) m hm host hx
    · obtain rfl := List.mem_singleton.mp hm
      cases hx
  obtain ⟨h', hsame, hcourse, hunserved⟩ := (onCourse_start (s := s) hannounced).lives
    (hhost before (List.subset_append_left _ _))
  obtain ⟨hfollows, hsettings⟩ := follows_lives (e := { host := h, settings := s }) History.follows_empty before
  rw [List.nil_append] at hfollows
  dsimp only
  generalize ({ host := h, settings := s } : Engine).history before = past at *
  generalize ({ host := h, settings := s } : Engine).lives before = without at *
  have hhistory : (without.live (.ask c)).history (between ++ [.ask a]) = without.history (between ++ [.ask a]) := by
    refine history_cancelled hcancelled hcourse (fun htool => hunserved (hsame ▸ htool) ?_) ?_
    · intro entry hentry
      cases hentry
    · rw [hsame]
      exact hbetween
  have halong := (run_hintsFor c.file c.token (without.facing c)).2
  have hfollows' : History.Follows (past ++ [(key c.file, (without.facing c).standing c.file c.token)])
      (without.live (.ask c)).hints := by
    rw [live, halong]
    exact hfollows.remember c.file _
  have hsettings' : (without.live (.ask c)).settings = s :=
    (progress_hintsFor c.file c.token (without.facing c)).2.settings.trans hsettings
  obtain ⟨hlast, hkept⟩ := follows_lives hfollows between
  obtain ⟨hlast', hkept'⟩ := follows_lives hfollows' between
  rw [history_append, history_append] at hhistory
  obtain ⟨hrest, hstanding⟩ := List.append_inj' hhistory (by simp)
  replace hstanding := (Prod.mk.inj (List.singleton_inj.mp hstanding)).2
  rw [hrest, List.append_assoc, List.singleton_append] at hlast'
  have hanswer (e : Engine) (hkept : (e.lives between).settings = s) :
      ((hintsFor a.file a.token).run ((e.lives between).facing a)).1 =
        (((e.lives between).facing a).standing a.file a.token).answer s.fallback
          ((e.lives between).hints.get? a.file) := by
    rw [← hkept]
    exact (run_hintsFor a.file a.token ((e.lives between).facing a)).1
  rw [hanswer without (hkept.trans hsettings), hanswer _ (hkept'.trans hsettings'), history_append, hrest, hstanding]
  refine ⟨rfl, standing_of_isCancelled hcancelled c.file, fun htrace => ?_, fun hfew hfew' => ?_⟩
  · have hhints := hints_lives_congr hrest (halong.trans htrace)
    rw [hhints]
  · rw [hlast.get?_eq hfew, hlast'.get?_eq hfew']
    refine or_iff_not_imp_left.mpr fun hother => ?_
    have htrace := mt History.good?_insert fun hsame => hother (congrArg (Standing.answer s.fallback · _) hsame)
    push Not at htrace
    obtain ⟨hfile, hnext, hbroken⟩ := htrace
    refine ⟨hfile.symm, ?_, hfile ▸ hbroken, hfile ▸ hnext⟩
    cases hstands : ((without.lives between).facing a).standing a.file a.token with
    | broken => rfl
    | sound hints => exact absurd (by rw [hstands]; rfl) hother
    | refused => exact absurd (by rw [hstands]; rfl) hother

def cancelledAsking : Asking := ⟨{ cancelled := [1] }, [], "/a.c", 1⟩

def brittleBreaking : List Moment :=
  [.turn ⟨{}, [], .change brittleChanged⟩, .turn ⟨{}, [], .events [.changed "/.clang-format"]⟩]

/-- While the style is remembered and sound, a cancelled request leaves everything as it is: after the configuration
is broken both files are given their good hints all the same. -/
theorem hintsFor_around_cancelled_sound :
    let start : Engine := { host := brittleHost, settings := brittleSettings }
    let without := start.lives [.ask brittleOther, .ask brittleAsking]
    let answer (e : Engine) (a : Asking) := ((hintsFor a.file a.token).run ((e.lives brittleBreaking).facing a)).1
    (without.facing cancelledAsking).standing cancelledAsking.file cancelledAsking.token = .sound brittleHints ∧
      (answer (without.live (.ask cancelledAsking)) brittleAsking = answer without brittleAsking ∧
        answer without brittleAsking = some brittleHints) ∧
      (answer (without.live (.ask cancelledAsking)) brittleOther = answer without brittleOther ∧
        answer without brittleOther = some brittleHints) := by
  have hannounced (a : Asking) : AnnouncedFrom brittleHost.files brittleHost.files []
      (([Moment.ask brittleOther, .ask brittleAsking] ++
        Moment.ask cancelledAsking :: (brittleBreaking ++ [Moment.ask a])).map (·.happening)) :=
    ⟨announced_self _ _, announced_self _ _, announced_self _ _, announced_brittleChanged, trivial⟩
  have hkept := hintsFor_around_cancelled brittleSettings brittleHost [.ask brittleOther, .ask brittleAsking]
    brittleBreaking cancelledAsking
  obtain ⟨-, -, hfirst, -⟩ := hkept brittleAsking (by decide +kernel) (hannounced _) (by decide +kernel)
  obtain ⟨-, -, hsecond, -⟩ := hkept brittleOther (by decide +kernel) (hannounced _) (by decide +kernel)
  obtain ⟨hstands, hentries, hgood, hother⟩ :
      let without := ({ host := brittleHost, settings := brittleSettings } : Engine).lives
        [.ask brittleOther, .ask brittleAsking]
      (without.facing cancelledAsking).standing cancelledAsking.file cancelledAsking.token = .sound brittleHints ∧
        without.hints.entries = [(key "/b.c", ⟨brittleHints, 0⟩), (key "/a.c", ⟨brittleHints, 0⟩)] ∧
        ((hintsFor "/a.c" 0).run ((without.lives brittleBreaking).facing brittleAsking)).1 = some brittleHints ∧
        ((hintsFor "/b.c" 0).run ((without.lives brittleBreaking).facing brittleOther)).1 = some brittleHints := by
    decide +kernel
  have hmemory : (({ host := brittleHost, settings := brittleSettings } : Engine).lives
      [.ask brittleOther, .ask brittleAsking]).hints =
        ⟨[(key "/b.c", ⟨brittleHints, 0⟩), (key "/a.c", ⟨brittleHints, 0⟩)]⟩ := congrArg Recent.mk hentries
  -- The hints that the cancelled request remembers are the latest already.
  have hagain : (Standing.sound brittleHints).remember
      ⟨[(key "/b.c", ⟨brittleHints, 0⟩), (key "/a.c", ⟨brittleHints, 0⟩)]⟩ cancelledAsking.file =
        ⟨[(key "/b.c", ⟨brittleHints, 0⟩), (key "/a.c", ⟨brittleHints, 0⟩)]⟩ := congrArg Recent.mk (by decide +kernel)
  rw [hstands, hmemory] at hfirst hsecond
  exact ⟨hstands, ⟨hfirst hagain, hgood⟩, hsecond hagain, hother⟩

/-- After the configuration was broken it is another matter.  Before the style is asked for anew, such a request
forgets the good hints; after that, it counts as one more failure. -/
theorem hintsFor_lost_around_cancelled :
    let answer (s : Settings) (ms : List Moment) := ((hintsFor "/a.c" 0).run
      ((({ host := brittleHost, settings := s } : Engine).lives (.ask brittleAsking :: brittleBreaking ++ ms)).facing
        brittleAsking)).1
    answer { fallback := .always } [] = some brittleHints ∧
      answer { fallback := .always } [.ask cancelledAsking] = none ∧
      answer brittleSettings [.ask brittleAsking] = some brittleHints ∧
      answer brittleSettings [.ask brittleAsking, .ask cancelledAsking] = none := by
  decide +kernel

end Engine
end Restyle
