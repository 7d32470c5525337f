import Restyle.Proofs.Style.Memory

/-! # Requests that are made again

A request leaves behind what a second one needs: the chain of the directory, the place of the tool and,
unless it was cancelled, the style.  So a second request for the style of the same file answers as the
first did.
-/
namespace Restyle
open Restyle.Path Work

/-! ### Remembered values -/

namespace Recent

variable {α : Type}

theorem get?_insert_self (r : Recent α) (path : String) (value : α) : (r.insert path value).get? path = some value := by
  have hothers : ∀ entry ∈ (r.erase path).entries, entry.1 ≠ key path := by
    intro entry hentry
    simpa using List.of_mem_filter hentry
  have hnone (kept : List (Key × α)) (hkept : kept ⊆ (r.erase path).entries) :
      kept.find? (·.1 = key path) = none := by
    refine List.find?_eq_none.mpr fun entry hentry => ?_
    simpa using hothers entry (hkept hentry)
  unfold get? insert
  rw [List.find?_append]
  split
  · rw [hnone _ (List.drop_subset 1 _)]
    simp
  · rw [hnone _ (List.Subset.refl _)]
    simp

end Recent

/-! ### Remembered chains -/

namespace Chains

theorem get?_insert_self {c : Chains} {directory : String} (chain : List String)
    (hnew : ∀ entry ∈ c.entries, entry.1 ≠ key directory) : (c.insert directory chain).get? directory = some chain := by
  have hnone (kept : List (Key × List String)) (hkept : kept ⊆ c.entries) :
      kept.find? (·.1 = key directory) = none := by
    refine List.find?_eq_none.mpr fun entry hentry => ?_
    simpa using hnew entry (hkept hentry)
  unfold get? insert
  rw [List.find?_append]
  split
  · rw [hnone _ (List.drop_subset 1 _)]
    simp
  · rw [hnone _ (List.Subset.refl _)]
    simp

/-- A second search finds the remembered chain of the first directory. -/
theorem find_again (isFile : String → Bool) (c : Chains) {directories : List String} {k? : Option Key}
    (hk : directories.map key = Key.upward k?) :
    find isFile (find isFile c directories).2 directories = find isFile c directories := by
  cases directories with
  | nil => rfl
  | cons directory above =>
    cases hget : c.get? directory with
    | some chain =>
      have hfind : find isFile c (directory :: above) = (chain, c) := by rw [find, hget]
      rw [hfind, hfind]
    | none =>
      cases k? with
      | none => cases hk
      | some k =>
        rw [Key.upward, Key.ancestors_eq, List.map_cons, List.cons.injEq] at hk
        obtain ⟨hkey, habove⟩ := hk
        have hnew : ∀ entry ∈ (find isFile c above).2.entries, entry.1 ≠ key directory := by
          intro entry hentry he
          rcases mem_find hentry with hold | hupper
          · exact ne_of_get?_eq_none hget entry hold he
          · rw [habove, he, hkey] at hupper
            exact k.not_mem_upward_parent? hupper
        rw [find_cons_none above hget, find, get?_insert_self _ hnew]

theorem configFiles_again (files : FileStore) (c : Chains) (path : String) :
    configFiles files (configFiles files c path).2 path = configFiles files c path := by
  unfold configFiles
  cases searchStart? files.isDirectory path with
  | none => rfl
  | some directory =>
    have hk : (FileStore.ancestors directory).map key = Key.upward (some (key directory)) :=
      FileStore.map_key_ancestors directory
    exact find_again files.isFile c hk

end Chains

/-! ### Requests -/

namespace Engine

theorem run_configFiles_again (path : String) (e : Engine) :
    (configFiles path).run ((configFiles path).run e).2 = (configFiles path).run e := by
  have hagain := e.styles.chains.configFiles_again e.host.files path
  have hrun (e : Engine) : (configFiles path).run e = ((e.styles.chains.configFiles e.host.files path).1,
      { e with styles := { e.styles with chains := (e.styles.chains.configFiles e.host.files path).2 } }) := rfl
  rw [hrun, hrun]
  dsimp only
  rw [hagain]

theorem run_bind_congr {α β : Type} {w : Work α} {e other : Engine} (f : α → Work β) (h : w.run e = w.run other) :
    (w >>= f).run e = (w >>= f).run other := by
  rw [Work.run_bind, Work.run_bind, h]

theorem run_styleFor_configFiles (path : String) (t : Token) (e : Engine) :
    (styleFor path t).run ((configFiles path).run e).2 = (styleFor path t).run e := by
  have hkey : (dependencyKey path).run ((configFiles path).run e).2 = (dependencyKey path).run e := by
    unfold dependencyKey
    exact run_bind_congr _ (run_configFiles_again path e)
  unfold styleFor
  exact run_bind_congr _ hkey

def basis (e : Engine) : FileStore × Option String × Nat := (e.host.files, e.located, e.styles.generation)

theorem located_searched {e : Engine} (h : e.foundTool.filter e.host.files.isFile = none) :
    e.searched.located = e.located := by
  unfold located searched
  dsimp only
  cases e.settings.clangFormatPath with
  | some given => rfl
  | none =>
    dsimp only
    rw [h]
    change ((e.host.executable? "clang-format").filter e.host.files.isFile).or (e.host.executable? "clang-format") =
      e.host.executable? "clang-format"
    cases e.host.executable? "clang-format" with
    | none => rfl
    | some found =>
      rw [Option.filter_some]
      split <;> rfl

theorem generation_remember (m : StyleMemory) (path : String) (dependencies : DependencyKey)
    (result : Except Failure Style) : (m.remember path dependencies result).generation = m.generation := by
  unfold StyleMemory.remember
  split <;> rfl

theorem acrossRequests_basis : AcrossRequests fun e after => after.basis = e.basis where
  refl _ := rfl
  trans h h' := h'.trans h
  debug e line := by
    obtain ⟨err, h⟩ := e.host.debug_eq line
    rw [h]
    rfl
  search e h := by
    unfold basis
    rw [located_searched h]
    rfl
  call _ _ := rfl
  agenda _ _ := rfl
  chains _ _ := rfl
  remember e path key result := by
    unfold basis
    dsimp only
    rw [generation_remember]
    rfl

theorem run_dependencyKey_again (path : String) (t : Token) (e : Engine) :
    ((dependencyKey path).run ((styleFor path t).run e).2).1 = ((dependencyKey path).run e).1 := by
  have hbasis := acrossRequests_basis.moves_styleFor path t e
  obtain ⟨hfiles, hlocated, hgeneration⟩ : _ ∧ _ ∧ _ := by simpa only [basis, Prod.mk.injEq] using hbasis
  have hchains : ((styleFor path t).run e).2.styles.chains = (e.styles.chains.configFiles e.host.files path).2 :=
    congrArg Prod.fst (chainsView_styleFor path t e)
  rw [run_dependencyKey, run_dependencyKey, keyNow, keyNow, hfiles, hlocated, hgeneration, hchains,
    Chains.configFiles_again]

theorem DependencyKey.same_self (a : DependencyKey) : a.same a = true :=
  (DependencyKey.same_iff a a).mpr ⟨rfl, rfl, rfl⟩

/-- What a request for a style answers is remembered for the next one, unless it is that it was cancelled. -/
theorem remembered?_styleFor {path : String} {t : Token} {e : Engine}
    (h : ((styleFor path t).run e).1 ≠ .error .cancelled) :
    ((styleFor path t).run e).2.styles.remembered? path ((dependencyKey path).run e).1 =
      some ((styleFor path t).run e).1 := by
  rcases styleFor_cases path t e with ⟨hremembered, hstyles, -⟩ | ⟨-, hstyles, -⟩
  · rw [StyleMemory.remembered?] at hremembered ⊢
    rw [hstyles]
    exact hremembered
  · rcases StyleMemory.styles_remember path ((dependencyKey path).run e).1 ((styleFor path t).run e).1 with
      ⟨hcancelled, -⟩ | ⟨-, hinsert⟩
    · exact absurd hcancelled h
    · rw [StyleMemory.remembered?, hstyles, hinsert, Recent.get?_insert_self, Option.bind_some, if_pos]
      exact DependencyKey.same_self _

/-- A second request for a style answers as the first did. -/
theorem styleFor_again {path : String} {t : Token} {e : Engine} (h : ((styleFor path t).run e).1 ≠ .error .cancelled)
    (t' : Token) :
    ((styleFor path t').run ((styleFor path t).run e).2).1 = ((styleFor path t).run e).1 := by
  have hremembered := remembered?_styleFor h
  rw [← run_dependencyKey_again path t e] at hremembered
  rcases styleFor_cases path t' ((styleFor path t).run e).2 with ⟨hagain, -⟩ | ⟨hnone, -⟩
  · exact (Option.some.inj (hremembered.symm.trans hagain)).symm
  · rw [hremembered] at hnone
    cases hnone

end Engine
end Restyle
