import Mathlib.Data.List.Infix
import Restyle.File.Store
import Restyle.Proofs.File.Path

/-! # Stores and the parts of paths

Whether a store has a file at a path, and which directories lie above that path, can be told from the
parts of the path.
-/
namespace Restyle

namespace Path.Key

def ancestors (k : Key) : List Key :=
  k :: match _h : k.parent? with
    | some above => ancestors above
    | none => []
termination_by k.depth
decreasing_by exact depth_parent _h

/-- The paths from a path on upwards, if there is one. -/
def upward : Option Key → List Key
  | some k => k.ancestors
  | none => []

theorem ancestors_eq (k : Key) : k.ancestors = k :: upward k.parent? := by
  rw [ancestors]
  split <;> rename_i h <;> rw [h] <;> rfl

theorem depth_le_of_mem_ancestors {k above : Key} (h : above ∈ k.ancestors) : above.depth ≤ k.depth := by
  induction k using ancestors.induct with
  | case1 k ih =>
    rw [ancestors_eq] at h
    rcases List.mem_cons.mp h with rfl | h
    · exact Nat.le_refl _
    · cases hp : k.parent? with
      | none =>
        rw [hp] at h
        cases h
      | some next =>
        rw [hp] at h
        exact Nat.le_trans (ih next hp h) (Nat.le_of_lt (depth_parent hp))

/-- A path does not lie above itself. -/
theorem not_mem_upward_parent? (k : Key) : k ∉ upward k.parent? := by
  intro h
  cases hp : k.parent? with
  | none =>
    rw [hp] at h
    cases h
  | some above =>
    rw [hp] at h
    have hle := depth_le_of_mem_ancestors h
    have hlt := depth_parent hp
    omega

/-- The paths above a path, nearest first: each keeps one part less than the one below it, down to the front
alone.  Above a dot at the front there is the empty path. -/
def above (k : Key) : List Key :=
  k.parts.inits.dropLast.reverse.map (Key.mk k.front) ++ if k.front = ['.'] then [⟨[], []⟩] else []

theorem above_of_parts_eq_nil (f : List Char) : above ⟨f, []⟩ = if f = ['.'] then [⟨[], []⟩] else [] := rfl

theorem above_concat (f : List Char) (ps : List (List Char)) (p : List Char) :
    above ⟨f, ps ++ [p]⟩ = ⟨f, ps⟩ :: above ⟨f, ps⟩ := by
  have hlonger : (ps ++ [p]).inits.dropLast = ps.inits := by
    rw [List.inits_append]
    exact List.dropLast_concat
  have hlast : ps.inits.reverse = ps :: ps.inits.dropLast.reverse := by
    rcases List.eq_nil_or_concat ps with rfl | ⟨qs, q, rfl⟩
    · rfl
    · rw [List.concat_eq_append, List.inits_append]
      simp [List.inits]
  rw [above, hlonger, hlast]
  rfl

theorem upward_parent? (k : Key) : upward k.parent? = k.above := by
  obtain ⟨f, ps⟩ := k
  induction ps using List.reverseRecOn with
  | nil =>
    rw [above_of_parts_eq_nil, parent?, if_pos rfl]
    split
    · exact ancestors_eq _
    · rfl
  | append_singleton ps p ih =>
    have hparent : parent? ⟨f, ps ++ [p]⟩ = some ⟨f, ps⟩ := by
      rw [parent?, if_neg (List.append_ne_nil_of_right_ne_nil ps (List.cons_ne_nil p []))]
      exact congrArg (fun qs => some (Key.mk f qs)) List.dropLast_concat
    rw [hparent, above_concat, ← ih]
    exact ancestors_eq _

end Path.Key

namespace Path

theorem depth_key_le (path : String) : (key path).depth ≤ path.length := by
  have hcut := congrArg List.length (front_append_front path.toList)
  have hparts := length_parts_le (front path.toList).2
  rw [List.length_append, String.length_toList] at hcut
  rw [key_eq, Key.depth]
  dsimp only
  split
  · rename_i hdot
    rw [hdot] at hcut
    simp only [List.length_cons, List.length_nil] at hcut
    omega
  · omega

end Path

namespace FileStore
open Restyle.Path

theorem map_key_ancestorsUpTo {n : Nat} {path : String} (h : (key path).depth < n) :
    (ancestorsUpTo n path).map key = (key path).ancestors := by
  induction n generalizing path with
  | zero => exact absurd h (Nat.not_lt_zero _)
  | succ n ih =>
    have hparent := map_key_parent? path
    rw [ancestorsUpTo, Key.ancestors_eq, List.map_cons, ← hparent]
    cases hp : parent? path with
    | none => rfl
    | some above =>
      rw [hp] at hparent
      have hlt := Key.depth_parent hparent.symm
      exact congrArg (key path :: ·) (ih (by omega))

/-- The paths above a path are found up to the last one, however many there are. -/
theorem map_key_ancestors (path : String) : (ancestors path).map key = (key path).ancestors :=
  map_key_ancestorsUpTo (Nat.lt_succ_of_le (depth_key_le path))

def has (s : FileStore) (k : Key) : Bool := (s.find? k.normal).isSome

theorem isFile_eq (s : FileStore) (path : String) : s.isFile path = s.has (key path) := by
  rw [isFile, get?, key_normalize]
  rfl

theorem exists_normalize_of_canonicalize {s : FileStore} {directory path file : String}
    (h : s.canonicalize directory path = .ok file) : ∃ seen, file = normalize seen := by
  unfold canonicalize at h
  generalize (if isAbsolute path then path else join directory path) = seen at h
  dsimp only at h
  split at h
  · cases h
    exact ⟨seen, rfl⟩
  · cases h

/-! ### Events -/

/-- Whether some events name every file that only one of two stores has, other than for its content. -/
def Named (before after : FileStore) (heard : List FileEvent) : Prop :=
  ∀ k, (before.find? k).isSome ≠ (after.find? k).isSome →
    ∃ event ∈ heard, event.isContentChange = false ∧ ∃ path ∈ event.paths, key path = k

theorem find?_filter_ne (files : List StoredFile) (k other : Key) :
    (files.filter (·.path ≠ k)).find? (·.path = other) =
      if other = k then none else files.find? (·.path = other) := by
  rw [List.find?_filter]
  split
  · rename_i h
    refine List.find?_eq_none.mpr fun f _ hf => ?_
    simp [h] at hf
  · rename_i h
    refine congrArg (fun p => files.find? p) (funext fun f => ?_)
    by_cases hf : f.path = other
    · simp [hf, h]
    · simp [hf]

theorem find?_put (s : FileStore) (f : StoredFile) (k : Key) :
    (s.put f).find? k = if k = f.path then some f else s.find? k := by
  unfold find? put
  by_cases h : k = f.path
  · simp [h]
  · rw [if_neg h, List.find?_cons_of_neg (by simp [Ne.symm h]), find?_filter_ne, if_neg h]

theorem find?_addParents (s : FileStore) (path : String) (k : Key) : (s.addParents path).find? k = s.find? k := by
  unfold addParents
  split <;> rfl

theorem find?_write (s : FileStore) (path : String) (bytes : List UInt8) (k : Key) :
    (s.write path bytes).find? k =
      if k = key (normalize path) then some ⟨key (normalize path), bytes, s.nextStamp⟩ else s.find? k := by
  have hput := find?_put (s.addParents (normalize path)) ⟨key (normalize path), bytes, s.nextStamp⟩ k
  rw [find?_addParents] at hput
  rw [← hput]
  unfold find?
  rfl

theorem find?_write_of_ne {path : String} {k : Key} (h : k ≠ key (normalize path)) (s : FileStore) (bytes : List UInt8) :
    (s.write path bytes).find? k = s.find? k :=
  (find?_write s path bytes k).trans (if_neg h)

theorem get?_write (s : FileStore) (path : String) (bytes : List UInt8) :
    (s.write path bytes).get? path = some ⟨key (normalize path), bytes, s.nextStamp⟩ :=
  (find?_write s path bytes _).trans (if_pos rfl)

/-- A write records an event that names the file if it is new. -/
theorem named_write (s : FileStore) (path : String) (bytes : List UInt8) :
    ∃ event, (s.write path bytes).events = s.events ++ [event] ∧ s.Named (s.write path bytes) [event] := by
  refine ⟨_, rfl, fun k hk => ⟨_, List.mem_singleton_self _, ?_⟩⟩
  rw [find?_write] at hk
  split at hk
  · rename_i h
    subst h
    have hnew : ¬(s.find? (key (normalize path))).isSome = true := fun h => hk (by rw [h]; rfl)
    rw [if_neg hnew]
    exact ⟨rfl, _, List.mem_singleton_self _, rfl⟩
  · exact absurd rfl hk

/-- A removal records an event that names the file if there was one. -/
theorem named_remove (s : FileStore) (path : String) :
    ∃ heard, (s.remove path).events = s.events ++ heard ∧ s.Named (s.remove path) heard := by
  unfold remove
  dsimp only
  split
  · refine ⟨_, rfl, fun k hk => ⟨_, List.mem_singleton_self _, rfl, _, List.mem_singleton_self _, ?_⟩⟩
    have hfind := find?_filter_ne s.files (key path) k
    by_cases h : k = key path
    · exact h.symm
    · rw [if_neg h] at hfind
      exact absurd (congrArg Option.isSome hfind).symm hk
  · exact ⟨[], (List.append_nil _).symm, fun k hk => absurd rfl hk⟩

/-- A rename records an event that names both paths if there was a file. -/
theorem named_rename (s : FileStore) (source target : String) :
    ∃ heard, (s.rename source target).events = s.events ++ heard ∧ s.Named (s.rename source target) heard := by
  unfold rename
  dsimp only
  split
  · exact ⟨[], (List.append_nil _).symm, fun k hk => absurd rfl hk⟩
  · rename_i f hf
    refine ⟨_, rfl, fun k hk => ⟨_, List.mem_singleton_self _, rfl, ?_⟩⟩
    by_cases hsource : k = key source
    · exact ⟨source, List.mem_cons_self, hsource.symm⟩
    by_cases htarget : k = key target
    · exact ⟨target, List.mem_cons_of_mem _ (List.mem_singleton_self _), htarget.symm⟩
    refine absurd ?_ hk
    have hput := find?_put (({ s with files := s.files.filter (·.path ≠ key source) }).addParents target)
      ⟨key target, f.bytes, s.nextStamp⟩ k
    rw [if_neg htarget, find?_addParents] at hput
    have hfilter := find?_filter_ne s.files (key source) k
    rw [if_neg hsource] at hfilter
    exact congrArg Option.isSome (hput.trans hfilter).symm

/-! ### Directories -/

def Housed (s : FileStore) : Prop := ∀ f ∈ s.files, ∀ above, f.path.parent? = some above → above ∈ s.directories

theorem subset_addDirectories (known : List Key) (paths : List String) : known ⊆ addDirectories known paths := by
  induction paths generalizing known with
  | nil => exact List.Subset.refl known
  | cons p ps ih =>
    unfold addDirectories
    split
    · exact List.Subset.refl known
    · exact List.Subset.trans (List.subset_cons_self _ _) (ih _)

theorem mem_addDirectories_self (known : List Key) (path : String) (above : List String) :
    key path ∈ addDirectories known (path :: above) := by
  unfold addDirectories
  split
  · rename_i h
    exact List.contains_iff_mem.mp h
  · exact subset_addDirectories _ _ List.mem_cons_self

theorem directories_write (s : FileStore) (path : String) (bytes : List UInt8) :
    (s.write path bytes).directories = (s.addParents (normalize path)).directories := by
  simp only [write, put]

/-- A file that is written where there was one needs no new directory. -/
theorem Housed.directories_write {s : FileStore} (h : s.Housed) {path : String}
    (hpresent : (s.get? path).isSome = true) (bytes : List UInt8) :
    (s.write path bytes).directories = s.directories := by
  obtain ⟨f, hf⟩ := Option.isSome_iff_exists.mp hpresent
  have hpath : f.path = key (normalize path) := by simpa using List.find?_some hf
  rw [FileStore.directories_write]
  unfold addParents
  cases hparent : parent? (normalize path) with
  | none => rfl
  | some p =>
    have hkey := map_key_parent? (normalize path)
    rw [hparent, ← hpath] at hkey
    have hknown := h f (List.mem_of_find?_eq_some hf) _ hkey.symm
    unfold addDirectory ancestors ancestorsUpTo addDirectories
    dsimp only
    rw [if_pos (List.contains_iff_mem.mpr hknown)]

theorem files_addParents (s : FileStore) (path : String) : (s.addParents path).files = s.files := by
  unfold addParents
  split <;> rfl

/-- A file that is put where its parents were added is housed. -/
theorem Housed.put {s : FileStore} (h : s.Housed) (path : String) {f : StoredFile} (hf : f.path = key path) :
    ((s.addParents path).put f).Housed := by
  intro other hother above habove
  have hmem : other ∈ f :: (s.addParents path).files.filter (·.path ≠ f.path) := hother
  rw [files_addParents] at hmem
  suffices hknown : above ∈ (s.addParents path).directories from hknown
  unfold addParents
  rcases List.mem_cons.mp hmem with rfl | hold
  · have hkey := map_key_parent? path
    rw [← hf, habove] at hkey
    obtain ⟨p, hparent, rfl⟩ := Option.map_eq_some_iff.mp hkey
    rw [hparent]
    exact mem_addDirectories_self _ _ _
  · have hknown := h other (List.mem_filter.mp hold).1 above habove
    split
    · exact subset_addDirectories _ _ hknown
    · exact hknown

theorem Housed.write {s : FileStore} (h : s.Housed) (path : String) (bytes : List UInt8) :
    (s.write path bytes).Housed := by
  have hput := h.put (normalize path) (f := ⟨key (normalize path), bytes, s.nextStamp⟩) rfl
  intro f hf above habove
  simp only [FileStore.write] at hf ⊢
  exact hput f hf above habove

theorem Housed.filter {s : FileStore} (h : s.Housed) (kept : StoredFile → Bool) :
    ({ s with files := s.files.filter kept }).Housed := fun f hf => h f (List.mem_filter.mp hf).1

theorem Housed.remove {s : FileStore} (h : s.Housed) (path : String) : (s.remove path).Housed := by
  unfold FileStore.remove
  dsimp only
  split
  · exact h.filter _
  · exact h

theorem Housed.rename {s : FileStore} (h : s.Housed) (source target : String) : (s.rename source target).Housed := by
  unfold FileStore.rename
  dsimp only
  split
  · exact h
  · exact (h.filter _).put target rfl

theorem Housed.addDirectory {s : FileStore} (h : s.Housed) (path : String) : (s.addDirectory path).Housed := by
  intro f hf above habove
  exact subset_addDirectories _ _ (h f hf above habove)

theorem housed_empty : ({} : FileStore).Housed := by
  intro f hf
  cases hf

end FileStore
end Restyle
