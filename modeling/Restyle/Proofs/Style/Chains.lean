import Mathlib.Data.List.Nodup
import Restyle.Proofs.File.Store
import Restyle.Style.Chains

/-! # Remembered chains are walks

A remembered chain is, up to the spelling of its paths, the walk that would be made afresh.  New chains
are computed from remembered ones, older ones make room meanwhile, and still every entry is the walk
from its directory, no directory has two entries, and there are never more entries than allowed.
-/
namespace Restyle
open Restyle.Path

/-! ### Walks by the parts of paths -/

def configKeysIn (has : Key → Bool) (directory : Key) : List Key :=
  (configFileNames.map fun name => directory.child name.toList).filter has

def walkKeys (has : Key → Bool) (directories : List Key) : List Key := directories.flatMap (configKeysIn has)

theorem configFileNames_plain :
    ∀ name ∈ configFileNames, '/' ∉ name.toList ∧ isVoid name.toList = false ∧ name.toList ≠ ['.', '.'] := by
  decide

theorem map_key_configFilesIn (files : FileStore) (directory : String) :
    (configFilesIn files.isFile directory).map key = configKeysIn files.has (key directory) := by
  have hhas : files.isFile = files.has ∘ key := funext fun path => files.isFile_eq path
  have hchild : (configFileNames.map (Path.join directory)).map key =
      configFileNames.map fun name => (key directory).child name.toList := by
    rw [List.map_map]
    refine List.map_congr_left fun name hname => ?_
    obtain ⟨hs, hv, -⟩ := configFileNames_plain name hname
    exact key_join directory hs hv
  rw [configFilesIn, configKeysIn, hhas, ← List.filter_map, hchild]

theorem map_key_walk (files : FileStore) (directories : List String) :
    (walk files.isFile directories).map key = walkKeys files.has (directories.map key) := by
  rw [walk, walkKeys, List.map_flatMap, List.flatMap_map]
  exact congrArg (List.flatMap · directories) (funext (map_key_configFilesIn files))

/-- Walks depend on configuration files only. -/
theorem walkKeys_congr {has other : Key → Bool} (h : ∀ directory : Key, ∀ name ∈ configFileNames,
    has (directory.child name.toList) = other (directory.child name.toList)) (directories : List Key) :
    walkKeys has directories = walkKeys other directories := by
  have hconfig (directory : Key) : configKeysIn has directory = configKeysIn other directory := by
    refine List.filter_congr fun k hk => ?_
    obtain ⟨name, hname, rfl⟩ := List.mem_map.mp hk
    exact h directory name hname
  exact congrArg (List.flatMap · directories) (funext hconfig)

namespace Chains

/-! ### Entries -/

/-- Every entry is the walk from its directory. -/
def Sound (has : Key → Bool) (c : Chains) : Prop :=
  ∀ entry ∈ c.entries, entry.2.map key = walkKeys has entry.1.ancestors

structure Bounded (c : Chains) : Prop where
  length_le : c.entries.length ≤ capacity
  nodup : (c.entries.map (·.1)).Nodup

theorem sound_empty (has : Key → Bool) : ({} : Chains).Sound has := by
  intro entry h
  cases h

theorem bounded_empty : ({} : Chains).Bounded := ⟨Nat.zero_le _, List.nodup_nil⟩

theorem mem_of_get?_eq_some {c : Chains} {directory : String} {chain : List String}
    (h : c.get? directory = some chain) : (key directory, chain) ∈ c.entries := by
  obtain ⟨entry, hfind, rfl⟩ := Option.map_eq_some_iff.mp h
  have hkey : entry.1 = key directory := by simpa using List.find?_some hfind
  rw [← hkey]
  exact List.mem_of_find?_eq_some hfind

theorem ne_of_get?_eq_none {c : Chains} {directory : String} (h : c.get? directory = none) :
    ∀ entry ∈ c.entries, entry.1 ≠ key directory := by
  intro entry hentry
  have hnone := List.find?_eq_none.mp (Option.map_eq_none_iff.mp h) entry hentry
  simpa using hnone

theorem mem_insert {c : Chains} {directory : String} {chain : List String} {entry : Key × List String}
    (h : entry ∈ (c.insert directory chain).entries) : entry ∈ c.entries ∨ entry = (key directory, chain) := by
  rcases List.mem_append.mp h with h | h
  · split at h
    · exact Or.inl (List.mem_of_mem_drop h)
    · exact Or.inl h
  · exact Or.inr (List.mem_singleton.mp h)

theorem Sound.insert {has : Key → Bool} {c : Chains} (h : c.Sound has) {directory : String} {chain : List String}
    (hchain : chain.map key = walkKeys has (key directory).ancestors) : (c.insert directory chain).Sound has := by
  intro entry hentry
  rcases mem_insert hentry with hold | rfl
  · exact h entry hold
  · exact hchain

theorem Bounded.insert {c : Chains} (h : c.Bounded) {directory : String} (chain : List String)
    (hnew : ∀ entry ∈ c.entries, entry.1 ≠ key directory) : (c.insert directory chain).Bounded := by
  have hlen := h.length_le
  have hcap : 0 < capacity := by decide
  constructor
  · simp only [Chains.insert, List.length_append, List.length_cons, List.length_nil]
    split
    · rw [List.length_drop]
      omega
    · omega
  · have hkept : ∀ kept : List (Key × List String), kept.Sublist c.entries →
        ((kept ++ [(key directory, chain)]).map (·.1)).Nodup := by
      intro kept hsub
      rw [List.map_append, List.nodup_append]
      refine ⟨h.nodup.sublist (hsub.map _), List.nodup_singleton _, fun k hk other hother => ?_⟩
      obtain ⟨entry, hentry, rfl⟩ := List.mem_map.mp hk
      rw [List.mem_singleton.mp hother]
      exact hnew entry (hsub.subset hentry)
    simp only [Chains.insert]
    split
    · exact hkept _ (List.drop_sublist 1 c.entries)
    · exact hkept _ (List.Sublist.refl _)

/-! ### Finding -/

theorem find_cons_none {isFile : String → Bool} {c : Chains} {directory : String} (above : List String)
    (h : c.get? directory = none) : find isFile c (directory :: above) =
      (configFilesIn isFile directory ++ (find isFile c above).1,
        (find isFile c above).2.insert directory (configFilesIn isFile directory ++ (find isFile c above).1)) := by
  rw [find, h]

/-- Each entry after a search was there before, or is for one of the directories. -/
theorem mem_find {isFile : String → Bool} {c : Chains} {directories : List String} {entry : Key × List String}
    (h : entry ∈ (find isFile c directories).2.entries) : entry ∈ c.entries ∨ entry.1 ∈ directories.map key := by
  induction directories with
  | nil => exact Or.inl h
  | cons directory above ih =>
    cases hget : c.get? directory with
    | some chain =>
      rw [find, hget] at h
      exact Or.inl h
    | none =>
      rw [find_cons_none above hget] at h
      rcases mem_insert h with h | rfl
      · exact (ih h).imp_right (List.mem_cons_of_mem _)
      · exact Or.inr List.mem_cons_self

/-- The directories of a search are a path and those above it. -/
theorem Bounded.find {c : Chains} (h : c.Bounded) (isFile : String → Bool) {directories : List String}
    {k? : Option Key} (hk : directories.map key = Key.upward k?) : (Chains.find isFile c directories).2.Bounded := by
  induction directories generalizing k? with
  | nil => exact h
  | cons directory above ih =>
    cases hget : c.get? directory with
    | some chain =>
      rw [Chains.find, hget]
      exact h
    | none =>
      cases k? with
      | none => cases hk
      | some k =>
        rw [Key.upward, Key.ancestors_eq, List.map_cons, List.cons.injEq] at hk
        obtain ⟨hkey, habove⟩ := hk
        rw [find_cons_none above hget]
        refine (ih habove).insert _ fun entry hentry => ?_
        rcases mem_find hentry with hold | hnew
        · exact ne_of_get?_eq_none hget entry hold
        -- The entries that the search adds before are for directories above this one.
        · rintro he
          rw [habove, he, hkey] at hnew
          exact k.not_mem_upward_parent? hnew

/-- A search in sound entries answers the walk and leaves sound entries. -/
theorem Sound.find {files : FileStore} {c : Chains} (h : c.Sound files.has) {directories : List String}
    {k? : Option Key} (hk : directories.map key = Key.upward k?) :
    (Chains.find files.isFile c directories).1.map key = walkKeys files.has (Key.upward k?) ∧
      (Chains.find files.isFile c directories).2.Sound files.has := by
  induction directories generalizing k? with
  | nil =>
    rw [← hk]
    exact ⟨rfl, h⟩
  | cons directory above ih =>
    cases k? with
    | none => cases hk
    | some k =>
      rw [Key.upward, Key.ancestors_eq, List.map_cons, List.cons.injEq] at hk
      obtain ⟨hkey, habove⟩ := hk
      cases hget : c.get? directory with
      | some chain =>
        rw [Chains.find, hget, ← hkey]
        exact ⟨h _ (mem_of_get?_eq_some hget), h⟩
      | none =>
        obtain ⟨hupper, hsound⟩ := ih habove
        have hchain : (configFilesIn files.isFile directory ++ (Chains.find files.isFile c above).1).map key =
            walkKeys files.has (key directory).ancestors := by
          rw [List.map_append, map_key_configFilesIn, hupper, hkey, Key.ancestors_eq]
          rfl
        rw [find_cons_none above hget]
        exact ⟨hkey ▸ hchain, hsound.insert hchain⟩

end Chains

def configWalk (files : FileStore) (path : String) : List String :=
  match searchStart? files.isDirectory path with
  | some directory => walk files.isFile (FileStore.ancestors directory)
  | none => []

/-- A walk goes through the path itself, if it is a directory, and then through everything above it. -/
theorem map_key_configWalk (files : FileStore) (path : String) : (configWalk files path).map key =
    walkKeys files.has (if files.isDirectory path then key path :: (key path).above else (key path).above) := by
  unfold configWalk searchStart?
  split_ifs with hdirectory
  · dsimp only
    rw [map_key_walk, FileStore.map_key_ancestors, Key.ancestors_eq, Key.upward_parent?]
  · rw [← Key.upward_parent?, ← map_key_parent?]
    cases parent? path with
    | none => rfl
    | some directory => exact (map_key_walk files _).trans (congrArg _ (FileStore.map_key_ancestors directory))

namespace Chains

theorem Bounded.configFiles {c : Chains} (h : c.Bounded) (files : FileStore) (path : String) :
    (Chains.configFiles files c path).2.Bounded := by
  unfold Chains.configFiles
  split
  · rename_i directory _
    have hk : (FileStore.ancestors directory).map key = Key.upward (some (key directory)) :=
      FileStore.map_key_ancestors directory
    exact h.find files.isFile hk
  · exact h

theorem Sound.configFiles {files : FileStore} {c : Chains} (h : c.Sound files.has) (path : String) :
    (Chains.configFiles files c path).1.map key = (configWalk files path).map key ∧
      (Chains.configFiles files c path).2.Sound files.has := by
  unfold Chains.configFiles configWalk
  cases searchStart? files.isDirectory path with
  | none => exact ⟨rfl, h⟩
  | some directory =>
    have hk : (FileStore.ancestors directory).map key = Key.upward (some (key directory)) :=
      FileStore.map_key_ancestors directory
    dsimp only
    rw [map_key_walk, hk]
    exact h.find hk

/-! ### Changes of files -/

/-- Entries are sound for each store that has the same configuration files. -/
theorem Sound.of_has_eq {has other : Key → Bool} {c : Chains} (h : c.Sound has)
    (heq : ∀ directory : Key, ∀ name ∈ configFileNames, has (directory.child name.toList) = other (directory.child name.toList)) :
    c.Sound other := by
  intro entry hentry
  rw [h entry hentry]
  exact walkKeys_congr heq entry.1.ancestors

end Chains
end Restyle
