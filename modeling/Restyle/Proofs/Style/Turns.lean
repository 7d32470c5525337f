import Restyle.Proofs.Style.Memory

/-! # Remembered styles are fresh

Requests for styles, changes of the host, events and cancellations come in any order.  Remembered styles stay
true along all of these, so a request that is not cancelled answers what it would answer if nothing were
remembered.
-/
namespace Restyle
open Restyle.Path Work

/-- What happens, and the desk and the agenda at that time: any token may be cancelled before it or during it. -/
structure Turn where
  desk : Desk
  agenda : List DeskStep
  happening : Happening

namespace Happening

def host? : Happening → Option Host
  | .change host => some host
  | _ => none

def asked? : Happening → Option String
  | .query (.styleFor path _) => some path
  | _ => none

end Happening

namespace Engine

variable {answers : Answers} {hosts : List Host} {paths tools : List String} {e : Engine}

def turn (e : Engine) (x : Turn) : Engine := { e with desk := x.desk, agenda := x.agenda }.happen x.happening

def turns (e : Engine) (xs : List Turn) : Engine := xs.foldl turn e

theorem progress_ask (q : Query) (e : Engine) : e.Progress (q.ask e) := by
  cases q with
  | configFiles path => exact acrossRequests_progress.chains e path
  | isConfigured path => exact acrossRequests_progress.chains e path
  | styleFile path => exact acrossRequests_progress.chains e path
  | dependencyKey path => exact acrossRequests_progress.moves_dependencyKey path e
  | styleFor path token => exact acrossRequests_progress.moves_styleFor path token e

theorem Tracks.events (h : e.Tracks answers hosts paths tools) (batch : List FileEvent) :
    ((handleEvents batch).run e).2.Tracks answers hosts paths tools := by
  obtain ⟨err, hrun⟩ := run_handleEvents batch e
  rw [hrun]
  exact ⟨h.host, h.places, h.found, h.kept⟩

theorem Tracks.happen (h : e.Tracks answers hosts paths tools) (hs : Steady answers hosts paths tools)
    {base : FileStore} {heard : List FileEvent} {x : Happening} {rest : List Happening}
    (hf : e.styles.chains.Faithful base heard) (ha : AnnouncedFrom base e.host.files heard (x :: rest))
    (hhost : ∀ host ∈ x.host?, host ∈ hosts) (hasked : ∀ path ∈ x.asked?, path ∈ paths) :
    (e.happen x).Tracks answers hosts paths tools := by
  cases x with
  | change host => exact ⟨⟨host, hhost host rfl, rfl, rfl, rfl, rfl⟩, h.places, h.found, h.kept⟩
  | events batch => exact h.events batch
  | query q =>
    have hsound := hf.sound_of_announced ha.1
    cases q with
    | styleFor path token => exact (h.styleFor hs hsound (hasked path rfl) token).2
    | dependencyKey path =>
      refine h.of_progress (progress_ask (.dependencyKey path) e) ?_
      have hstyles := congrArg StyleMemory.styles (styles_dependencyKey path e)
      exact fun entry hentry => h.kept entry (hstyles ▸ hentry)
    | configFiles path => exact h.of_progress (progress_ask (.configFiles path) e) h.kept
    | isConfigured path => exact h.of_progress (progress_ask (.isConfigured path) e) h.kept
    | styleFile path => exact h.of_progress (progress_ask (.styleFile path) e) h.kept

/-- Along a run of turns in which changes are announced, remembered results stay true, and at the last query
the chains are sound. -/
theorem Tracks.turns {xs : List Turn} {q : Query} {base : FileStore} {heard : List FileEvent}
    (h : e.Tracks answers hosts paths tools) (hs : Steady answers hosts paths tools)
    (hf : e.styles.chains.Faithful base heard)
    (ha : AnnouncedFrom base e.host.files heard (xs.map (·.happening) ++ [.query q]))
    (hhosts : ∀ x ∈ xs, ∀ host ∈ x.happening.host?, host ∈ hosts)
    (hasked : ∀ x ∈ xs, ∀ path ∈ x.happening.asked?, path ∈ paths) :
    (e.turns xs).Tracks answers hosts paths tools ∧
      (e.turns xs).styles.chains.Sound (e.turns xs).host.files.has := by
  -- The keys of remembered results are made from the chains, so both invariants go along the turns.
  induction xs generalizing e base heard with
  | nil => exact ⟨h, hf.sound_of_announced ha.1⟩
  | cons x xs ih =>
    have hset : Tracks answers hosts paths tools { e with desk := x.desk, agenda := x.agenda } :=
      ⟨h.host, h.places, h.found, h.kept⟩
    have hfset : ({ e with desk := x.desk, agenda := x.agenda } : Engine).styles.chains.Faithful base heard := hf
    obtain ⟨base', heard', hfaithful, hannounced⟩ := faithful_happen hfset ha
    refine ih ?_ hfaithful hannounced ?_ ?_
    · exact hset.happen hs hfset ha (hhosts x List.mem_cons_self) (hasked x List.mem_cons_self)
    · exact fun y hy => hhosts y (List.mem_cons_of_mem x hy)
    · exact fun y hy => hasked y (List.mem_cons_of_mem x hy)

theorem calls_styleFor {path : String} {stored : DependencyKey} {result : Except Failure Style} (t : Token)
    (hstored : e.styles.styles.get? path = some (stored, result))
    (hsame : stored.same ((dependencyKey path).run e).1 = true) :
    ((styleFor path t).run e).2.host.calls = e.host.calls := by
  have hremembered : e.styles.remembered? path ((dependencyKey path).run e).1 = some result := by
    rw [StyleMemory.remembered?, hstored, Option.bind_some, if_pos hsame]
  rcases styleFor_cases path t e with ⟨-, -, hcalls⟩ | ⟨hnone, -⟩
  · exact hcalls
  · rw [hremembered] at hnone
    cases hnone

def hostsIn (e : Engine) (xs : List Turn) : List Host := e.host :: xs.filterMap (·.happening.host?)

def placesIn (e : Engine) (xs : List Turn) : List String :=
  e.foundTool.toList ++ (e.hostsIn xs).flatMap (·.places e.settings)

def askedIn (xs : List Turn) : List String := xs.filterMap (·.happening.asked?)

theorem tracks_start (answers : Answers) (he : e.styles = {}) (xs : List Turn) (paths : List String) :
    e.Tracks answers (e.hostsIn xs) paths (e.placesIn xs) := by
  refine ⟨⟨e.host, List.mem_cons_self, rfl, rfl, rfl, rfl⟩, ?_, ?_, ?_⟩
  · intro h hh p hp
    exact List.mem_append_right _ (List.mem_flatMap.mpr ⟨h, hh, hp⟩)
  · intro _ p hp
    exact List.mem_append_left _ (Option.mem_toList.mpr hp)
  · rw [he]
    intro entry hentry
    cases hentry

/-- A style asked for while nothing is remembered and nobody cancels. -/
def freshStyle (e : Engine) (path : String) : Except Failure Style :=
  ((styleFor path 0).run { e with styles := {}, desk := {}, agenda := [] }).1

theorem Tracks.freshStyle_eq (h : e.Tracks answers hosts paths tools) (hs : Steady answers hosts paths tools)
    {path : String} (hp : path ∈ paths) : e.freshStyle path = styleBy answers e.host.files path e.located := by
  have hempty : Tracks answers hosts paths tools { e with styles := {}, desk := {}, agenda := [] } := by
    refine ⟨h.host, h.places, h.found, ?_⟩
    intro entry hentry
    cases hentry
  rcases (hempty.styleFor hs (Chains.sound_empty _) hp 0).1 with hfresh | ⟨-, hcancelled⟩
  · exact hfresh
  · have hidle := (acrossRequests_progress.moves_styleFor path 0 { e with styles := {}, desk := {}, agenda := [] }).idle rfl
    rw [hidle.1] at hcancelled
    cases hcancelled

/-- Whatever happens, a request for a style that is not cancelled answers as if nothing were remembered, and
one that is cancelled answers the same or that it is cancelled.  No cancellation is remembered, and the tool
is not called if the key of the remembered result holds. -/
theorem styleFor_transparent (answers : Answers) (e : Engine) (he : e.styles = {}) (xs : List Turn) (desk : Desk)
    (agenda : List DeskStep) (path : String) (t : Token)
    (ha : AnnouncedFrom e.host.files e.host.files [] (xs.map (·.happening) ++ [.query (.styleFor path t)]))
    (hs : Steady answers (e.hostsIn xs) (path :: askedIn xs) (e.placesIn xs)) :
    let now := { e.turns xs with desk, agenda }
    let asked := (styleFor path t).run now
    (asked.2.desk.isCancelled t = false → asked.1 = now.freshStyle path) ∧
    (asked.1 = now.freshStyle path ∨ asked.1 = .error .cancelled) ∧
    (∀ entry ∈ asked.2.styles.styles.entries, entry.2.2 ≠ .error .cancelled) ∧
    ∀ stored result, now.styles.styles.get? path = some (stored, result) →
      stored.same ((dependencyKey path).run now).1 = true → asked.2.host.calls = now.host.calls := by
  have hfaithful : e.styles.chains.Faithful e.host.files [] := he ▸ Chains.faithful_empty _ _
  have hhosts : ∀ x ∈ xs, ∀ host ∈ x.happening.host?, host ∈ e.hostsIn xs := by
    intro x hx host hhost
    exact List.mem_cons_of_mem _ (List.mem_filterMap.mpr ⟨x, hx, hhost⟩)
  have hasked : ∀ x ∈ xs, ∀ other ∈ x.happening.asked?, other ∈ path :: askedIn xs := by
    intro x hx other hother
    exact List.mem_cons_of_mem _ (List.mem_filterMap.mpr ⟨x, hx, hother⟩)
  obtain ⟨htracks, hsound⟩ := (tracks_start answers he xs (path :: askedIn xs)).turns hs hfaithful ha hhosts hasked
  have hnow : Tracks answers (e.hostsIn xs) (path :: askedIn xs) (e.placesIn xs) { e.turns xs with desk, agenda } :=
    ⟨htracks.host, htracks.places, htracks.found, htracks.kept⟩
  have hmem : path ∈ path :: askedIn xs := List.mem_cons_self
  obtain ⟨hanswer, hkept⟩ := hnow.styleFor hs hsound hmem t
  dsimp only
  rw [hnow.freshStyle_eq hs hmem]
  refine ⟨?_, ?_, ?_, ?_⟩
  · intro ht
    rcases hanswer with hfresh | ⟨-, hcancelled⟩
    · exact hfresh
    · rw [hcancelled] at ht
      cases ht
  · exact hanswer.imp_right And.left
  · intro entry hentry
    obtain ⟨-, -, -, -, -, -, -, -, -, -, hne⟩ := hkept.kept entry hentry
    exact hne
  · intro stored result hstored hsame
    exact calls_styleFor t hstored hsame

def echoTool : Tool := fun files _ _ =>
  { result := .ok ⟨0, (files.content? (key "/.clang-format")).getD [], []⟩ }

def echoHost : Host where
  files := ({} : FileStore).write "/.clang-format" (Utf8.encode "{}\n")
  executables := [("clang-format", "/tool")]
  tool := some echoTool

def echoChanged : Host :=
  { echoHost with files := echoHost.files.write "/.clang-format" (Utf8.encode "a: b\n") }

/-- The style is asked for, the configuration is changed, and a request is cancelled. -/
def echoTurns : List Turn :=
  [⟨{}, [], .query (.styleFor "/a.c" 0)⟩, ⟨{}, [], .change echoChanged⟩,
    ⟨{}, [], .events [.changed "/.clang-format"]⟩, ⟨{ cancelled := [0] }, [], .query (.styleFor "/a.c" 0)⟩]

def echoAnswers : Answers := fun _ configs _ _ => .ok ⟨0, (configs.head?.bind (·.2)).getD [], []⟩

/-- After those turns, the next request finds the new value of an option. -/
theorem styleFor_transparent_after_write :
    ((styleFor "/a.c" 1).run { ({ host := echoHost } : Engine).turns echoTurns with
      desk := {}, agenda := [] }).1.toOption.bind (·.text? "a") = some "b" := by
  have hhosts : ∀ h ∈ hostsIn { host := echoHost } echoTurns, h = echoHost ∨ h = echoChanged := by
    intro h hh
    simpa [hostsIn, echoTurns, Happening.host?] using hh
  have hpaths : ∀ path ∈ "/a.c" :: askedIn echoTurns, path = "/a.c" := by decide +kernel
  have htools : ∀ tool ∈ placesIn { host := echoHost } echoTurns, tool = "/tool" := by decide +kernel
  have hannounced : AnnouncedFrom echoHost.files echoHost.files []
      (echoTurns.map (·.happening) ++ [.query (.styleFor "/a.c" 1)]) := by
    have hrecorded : echoChanged.files.events = echoHost.files.events ++ [.changed "/.clang-format"] := by
      decide +kernel
    exact ⟨announced_self _ _, announced_write hrecorded (List.Subset.refl _), announced_self _ _, trivial⟩
  have hsteady : Steady echoAnswers (hostsIn { host := echoHost } echoTurns) ("/a.c" :: askedIn echoTurns)
      (placesIn { host := echoHost } echoTurns) := by
    refine ⟨?_, ?_, ?_, ?_⟩
    · intro h hh path hpath tool htool number
      obtain rfl := hpaths path hpath
      obtain rfl := htools tool htool
      have htool : h.tool = some echoTool := by
        rcases hhosts h hh with rfl | rfl <;> rfl
      have hbytes : (h.files.content? (key "/.clang-format")).getD [] =
          ((configContents h.files "/a.c").head?.bind (·.2)).getD [] := by
        rcases hhosts h hh with rfl | rfl <;> decide +kernel
      rw [Host.dump, Host.answer, htool, echoAnswers, ← hbytes]
      rfl
    · intro h hh h' hh'
      refine stampsTell_of_files ?_
      rcases hhosts h hh with rfl | rfl <;> rcases hhosts h' hh' with rfl | rfl <;> decide +kernel
    · intro a ha b hb _
      rw [hpaths a ha, hpaths b hb]
    · intro a ha b hb _
      rw [htools a ha, htools b hb]
  have hanswer := (styleFor_transparent echoAnswers { host := echoHost } rfl echoTurns {} [] "/a.c" 1
    hannounced hsteady).1 (by decide +kernel)
  rw [hanswer]
  decide +kernel

end Engine
end Restyle
