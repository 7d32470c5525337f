import Restyle.Proofs.Format.Course
import Restyle.Proofs.Style.Chains

/-! # Chains in the course of events

Queries about styles, changes of the host and batches of events about files come in any order.  As long
as every configuration file that came or went was named by an event before the next query, each query
finds the chain that a walk would find at that moment.
-/
namespace Restyle
open Restyle.Path Work

/-! ### What work leaves alone -/

def chainsView (e : Engine) : Chains × FileStore := (e.styles.chains, e.host.files)

namespace Engine

theorem files_debug (h : Host) (line : String) : (h.debug line).files = h.files := by
  obtain ⟨err, he⟩ := h.debug_eq line
  rw [he]

theorem unlogged_chainsView : Unlogged chainsView := .of_err (fun _ _ => rfl) (fun _ _ => rfl) (fun _ _ => rfl)

/-- Calling the tool leaves the chains and the files alone. -/
theorem acrossCalls_chainsView : AcrossCalls fun e after => chainsView after = chainsView e where
  refl _ := rfl
  trans h h' := h'.trans h
  debug e line := unlogged_chainsView.debug e line
  search _ _ := rfl
  call _ _ := rfl
  agenda _ _ := rfl

theorem chains_remember (m : StyleMemory) (path : String) (dependencies : DependencyKey)
    (result : Except Failure Style) : (m.remember path dependencies result).chains = m.chains := by
  unfold StyleMemory.remember
  split <;> rfl

/-! ### Queries -/

theorem chainsView_dependencyKey (path : String) (e : Engine) :
    chainsView ((dependencyKey path).run e).2 = chainsView ((configFiles path).run e).2 := by
  unfold dependencyKey
  rw [Work.run_bind]
  refine Keeps.bind Keeps.get (fun _ => Keeps.bind ?_ fun _ => Keeps.bind Keeps.get fun _ => Keeps.pure _) _
  exact acrossCalls_chainsView.moves_toolPath

theorem chainsView_styleFor (path : String) (t : Token) (e : Engine) :
    chainsView ((styleFor path t).run e).2 = chainsView ((configFiles path).run e).2 := by
  unfold styleFor
  rw [Work.run_bind, ← chainsView_dependencyKey]
  refine Keeps.bind Keeps.get (fun e => ?_) _
  split
  · exact Keeps.pure _
  · refine Keeps.bind (acrossCalls_chainsView.moves_computeStyle path _ t) fun result => ?_
    refine Keeps.bind (Keeps.modify fun e => ?_) fun _ => Keeps.pure _
    exact congrArg (Prod.mk · e.host.files) (chains_remember e.styles path _ result)

theorem run_handleEvents (events : List FileEvent) (e : Engine) : ∃ err, (handleEvents events).run e =
    ((), { e with host := { e.host with err }, styles := e.styles.afterEvents events }) := by
  unfold handleEvents
  split
  · obtain ⟨err, hdebug⟩ := run_debug "Configuration files were added or removed. Clearing the cache." e
    rw [Work.run_bind, hdebug]
    exact ⟨err, rfl⟩
  · exact ⟨e.host.err, rfl⟩

theorem chainsView_handleEvents (events : List FileEvent) (e : Engine) :
    chainsView ((handleEvents events).run e).2 =
      (if StyleMemory.chainsChanged events then {} else e.styles.chains, e.host.files) := by
  obtain ⟨err, hrun⟩ := run_handleEvents events e
  rw [hrun]
  rfl

end Engine

/-! ### Runs -/

inductive Query where
  | configFiles (path : String)
  | isConfigured (path : String)
  | styleFile (path : String)
  | dependencyKey (path : String)
  | styleFor (path : String) (token : Token)

inductive Happening where
  | query (q : Query)
  | change (host : Host)
  | events (batch : List FileEvent)

namespace Query

def path : Query → String
  | configFiles path | isConfigured path | styleFile path | dependencyKey path | styleFor path _ => path

def ask (q : Query) (e : Engine) : Engine :=
  match q with
  | configFiles path => ((Engine.configFiles path).run e).2
  | isConfigured path => ((Engine.isConfigured path).run e).2
  | styleFile path => ((Engine.styleFile? path).run e).2
  | dependencyKey path => ((Engine.dependencyKey path).run e).2
  | styleFor path token => ((Engine.styleFor path token).run e).2

/-- A query finds the chain of its path, and leaves the files as they are. -/
theorem chainsView_ask (q : Query) (e : Engine) :
    chainsView (q.ask e) = ((e.styles.chains.configFiles e.host.files q.path).2, e.host.files) := by
  cases q with
  | configFiles path => rfl
  | isConfigured path => rfl
  | styleFile path => rfl
  | dependencyKey path => exact Engine.chainsView_dependencyKey path e
  | styleFor path token => exact Engine.chainsView_styleFor path token e

theorem chains_ask (q : Query) (e : Engine) :
    (q.ask e).styles.chains = (e.styles.chains.configFiles e.host.files q.path).2 :=
  congrArg Prod.fst (q.chainsView_ask e)

theorem files_ask (q : Query) (e : Engine) : (q.ask e).host.files = e.host.files :=
  congrArg Prod.snd (q.chainsView_ask e)

end Query

namespace Engine

def happen (e : Engine) : Happening → Engine
  | .query q => q.ask e
  | .change host => { e with host }
  | .events batch => ((handleEvents batch).run e).2

def after (e : Engine) (hs : List Happening) : Engine := hs.foldl happen e

theorem chains_events (e : Engine) (batch : List FileEvent) : (e.happen (.events batch)).styles.chains =
    if StyleMemory.chainsChanged batch then {} else e.styles.chains :=
  congrArg Prod.fst (chainsView_handleEvents batch e)

theorem files_events (e : Engine) (batch : List FileEvent) :
    (e.happen (.events batch)).host.files = e.host.files :=
  congrArg Prod.snd (chainsView_handleEvents batch e)

theorem bounded_happen {e : Engine} (h : e.styles.chains.Bounded) (x : Happening) :
    (e.happen x).styles.chains.Bounded := by
  cases x with
  | query q =>
    rw [happen, Query.chains_ask]
    exact h.configFiles e.host.files q.path
  | change host => exact h
  | events batch =>
    rw [chains_events]
    split
    · exact Chains.bounded_empty
    · exact h

theorem bounded_after {e : Engine} (h : e.styles.chains.Bounded) (hs : List Happening) :
    (e.after hs).styles.chains.Bounded := by
  induction hs generalizing e with
  | nil => exact h
  | cons x hs ih => exact ih (bounded_happen h x)

end Engine

/-! ### Announced changes -/

def NamesConfig (k : Key) : Prop := ∃ name ∈ configFileNames, k.parts.getLast? = some name.toList

/-- Every configuration file that only one of two stores has was named by an event, which is no mere
change of content. -/
def Announced (before after : FileStore) (heard : List FileEvent) : Prop :=
  ∀ k, NamesConfig k → (before.find? k).isSome ≠ (after.find? k).isSome →
    ∃ event ∈ heard, event.isContentChange = false ∧ ∃ path ∈ event.paths, key path = k

theorem announced_self (files : FileStore) (heard : List FileEvent) : Announced files files heard :=
  fun _ _ h => absurd rfl h

/-- The events that a store records announce what happens to its files, also among other events. -/
theorem announced_of_named {before after : FileStore} {recorded heard : List FileEvent}
    (h : before.Named after recorded) (hsub : recorded ⊆ heard) : Announced before after heard := by
  intro k _ hk
  obtain ⟨event, hmem, hevent⟩ := h k hk
  exact ⟨event, hsub hmem, hevent⟩

theorem announced_write {files : FileStore} {path : String} {bytes : List UInt8} {recorded heard : List FileEvent}
    (hrecorded : (files.write path bytes).events = files.events ++ recorded) (hsub : recorded ⊆ heard) :
    Announced files (files.write path bytes) heard := by
  obtain ⟨event, hevent, hnamed⟩ := files.named_write path bytes
  have hsame : [event] = recorded := List.append_cancel_left (hevent.symm.trans hrecorded)
  exact announced_of_named (hsame ▸ hnamed) hsub

/-- Whether each query finds the changes announced that were made since the query before.  The files at
that query are `base`, and `heard` are the events since then. -/
def AnnouncedFrom (base files : FileStore) (heard : List FileEvent) : List Happening → Prop
  | [] => True
  | .query _ :: rest => Announced base files heard ∧ AnnouncedFrom files files [] rest
  | .change host :: rest => AnnouncedFrom base host.files heard rest
  | .events batch :: rest => AnnouncedFrom base files (heard ++ batch) rest

theorem isConfigFile_of_namesConfig {path : String} (h : NamesConfig (key path)) : isConfigFile path = true := by
  obtain ⟨name, hname, hlast⟩ := h
  have hsame : ∀ name ∈ configFileNames, configFileNames.any (sameIgnoringCase name) = true := by decide
  rw [isConfigFile, fileName?_eq, hlast, Option.bind_some, if_neg (configFileNames_plain name hname).2.2,
    String.ofList_toList]
  exact hsame name hname

theorem chainsChanged_append (heard batch : List FileEvent) : StyleMemory.chainsChanged (heard ++ batch) =
    (StyleMemory.chainsChanged heard || StyleMemory.chainsChanged batch) := by
  simp only [StyleMemory.chainsChanged, StyleMemory.concerning, List.filter_append, List.any_append]

/-- An event that names a configuration file, and is no mere change of content, makes all chains out of
date. -/
theorem chainsChanged_of_mem {heard : List FileEvent} {event : FileEvent} (hmem : event ∈ heard)
    (hcontent : event.isContentChange = false) {path : String} (hpath : path ∈ event.paths)
    (hconfig : NamesConfig (key path)) : StyleMemory.chainsChanged heard = true := by
  have hconcern : event.paths.any isConfigFile = true :=
    List.any_eq_true.mpr ⟨path, hpath, isConfigFile_of_namesConfig hconfig⟩
  exact List.any_eq_true.mpr ⟨event, List.mem_filter.mpr ⟨hmem, hconcern⟩, by rw [hcontent]; rfl⟩

namespace Chains

/-- Chains are walks in the files at the last query; since an event that makes them out of date there
are none. -/
structure Faithful (base : FileStore) (heard : List FileEvent) (c : Chains) : Prop where
  sound : c.Sound base.has
  changed : StyleMemory.chainsChanged heard = true → c = {}

theorem faithful_empty (base : FileStore) (heard : List FileEvent) : Faithful base heard {} :=
  ⟨sound_empty _, fun _ => rfl⟩

/-- Announced changes leave no chain that is out of date. -/
theorem Faithful.sound_of_announced {base files : FileStore} {heard : List FileEvent} {c : Chains}
    (h : Faithful base heard c) (ha : Announced base files heard) : c.Sound files.has := by
  cases hchanged : StyleMemory.chainsChanged heard with
  | true =>
    rw [h.changed hchanged]
    exact sound_empty _
  | false =>
    refine h.sound.of_has_eq fun directory name hname => ?_
    have hnormal := directory.normal_child (configFileNames_plain name hname).2.2
    by_cases heq : base.has (directory.child name.toList) = files.has (directory.child name.toList)
    · exact heq
    · have hconfig : NamesConfig (directory.child name.toList).normal := by
        rw [hnormal]
        exact ⟨name, hname, List.getLast?_concat⟩
      obtain ⟨event, hmem, hcontent, path, hpath, hkey⟩ := ha _ hconfig heq
      rw [chainsChanged_of_mem hmem hcontent hpath (hkey ▸ hconfig)] at hchanged
      cases hchanged

theorem Faithful.events {base : FileStore} {heard : List FileEvent} {c : Chains} (h : Faithful base heard c)
    (batch : List FileEvent) :
    Faithful base (heard ++ batch) (if StyleMemory.chainsChanged batch then {} else c) := by
  split <;> rename_i hbatch
  · exact faithful_empty base _
  · refine ⟨h.sound, fun hchanged => h.changed ?_⟩
    rw [chainsChanged_append, Bool.or_eq_true] at hchanged
    exact hchanged.resolve_right hbatch

end Chains

namespace Engine

/-- Whatever happens, chains stay walks in the files at the last query, and what is announced stays so. -/
theorem faithful_happen {e : Engine} {base : FileStore} {heard : List FileEvent} {x : Happening} {rest : List Happening}
    (hf : e.styles.chains.Faithful base heard) (ha : AnnouncedFrom base e.host.files heard (x :: rest)) :
    ∃ base' heard', (e.happen x).styles.chains.Faithful base' heard' ∧
      AnnouncedFrom base' (e.happen x).host.files heard' rest := by
  cases x with
  -- A query brings the chains up to date, so what was heard before it counts no more.
  | query asked =>
    have hsound := hf.sound_of_announced ha.1
    refine ⟨e.host.files, [], ⟨?_, fun h => by cases h⟩, ?_⟩
    · rw [happen, Query.chains_ask]
      exact (hsound.configFiles asked.path).2
    · rw [happen, Query.files_ask]
      exact ha.2
  | change host => exact ⟨base, heard, hf, ha⟩
  | events batch =>
    refine ⟨base, heard ++ batch, ?_, ?_⟩
    · rw [chains_events]
      exact hf.events batch
    · rw [files_events]
      exact ha

/-- Along a run in which changes are announced, the chains at the last query are sound. -/
theorem sound_after {e : Engine} {base : FileStore} {heard : List FileEvent} {hs : List Happening} {q : Query}
    (hf : e.styles.chains.Faithful base heard) (ha : AnnouncedFrom base e.host.files heard (hs ++ [.query q])) :
    (e.after hs).styles.chains.Sound (e.after hs).host.files.has := by
  induction hs generalizing e base heard with
  | nil => exact hf.sound_of_announced ha.1
  | cons x hs ih =>
    obtain ⟨base', heard', hnext, hannounced⟩ := faithful_happen hf ha
    exact ih hnext hannounced

/-- After any run that starts without remembered chains, at most a hundred directories have a chain and
none has two; and where changes were announced, the configuration files that are found for a path are,
as paths, those of a walk at that moment.  The walk starts at the path itself if that is a directory, and
else above it, and takes one part less at each step. -/
theorem configFiles_after (e : Engine) (he : e.styles.chains = {}) (hs : List Happening) :
    (e.after hs).styles.chains.entries.length ≤ 100 ∧
      ((e.after hs).styles.chains.entries.map (·.1)).Nodup ∧
      ∀ path, AnnouncedFrom e.host.files e.host.files [] (hs ++ [.query (.configFiles path)]) →
        ((configFiles path).run (e.after hs)).1.map key = (configWalk (e.after hs).host.files path).map key ∧
        (configWalk (e.after hs).host.files path).map key = walkKeys (e.after hs).host.files.has
          (if (e.after hs).host.files.isDirectory path then key path :: (key path).above else (key path).above) := by
  have hbounded : (e.after hs).styles.chains.Bounded := bounded_after (he ▸ Chains.bounded_empty) hs
  refine ⟨hbounded.length_le, hbounded.nodup, fun path ha => ?_⟩
  have hfaithful : e.styles.chains.Faithful e.host.files [] := he ▸ Chains.faithful_empty _ _
  exact ⟨((sound_after hfaithful ha).configFiles path).1, map_key_configWalk _ path⟩

/-- A style is asked for while there is no configuration file; then one is written and announced. -/
theorem configFiles_after_write :
    ((configFiles "/src/b.c").run (({} : Engine).after [.query (.styleFor "/src/a.c" 0),
      .change { files := ({} : FileStore).write "/src/.clang-format" [] },
      .events [.changed "/src/a.c", .created "/src/.clang-format"], .query (.dependencyKey "/src/a.c")])).1.map key =
      [key "/src/.clang-format"] := by
  have hrecorded : (({} : FileStore).write "/src/.clang-format" []).events = [.created "/src/.clang-format"] := by
    decide +kernel
  refine Eq.trans ((configFiles_after {} rfl _).2.2 "/src/b.c" ?_).1 ?_
  · exact ⟨announced_self _ _, announced_write hrecorded (by decide), announced_self _ _, trivial⟩
  · decide +kernel

end Engine
end Restyle
