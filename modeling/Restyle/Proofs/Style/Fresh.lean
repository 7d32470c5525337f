import Restyle.Proofs.Format.Answer
import Restyle.Proofs.Style.Run

/-! # Styles found afresh

The style of a file follows from the answer of the tool.  A request for it uses a remembered result whose
key still holds, and otherwise asks the tool and remembers what follows from the answer.
-/
namespace Restyle
open Restyle.Path Work

namespace FileStore

def content? (s : FileStore) (k : Key) : Option (List UInt8) := (s.find? k.normal).map (·.bytes)

def stampAt? (s : FileStore) (k : Key) : Option Nat := (s.find? k.normal).map (·.stamp)

theorem stamp?_eq (s : FileStore) (path : String) : s.stamp? path = s.stampAt? (key path) := by
  rw [stamp?, get?, key_normalize]
  rfl

end FileStore

def Style.ofAnswer (command : Invocation) : Except Failure ToolOutput → Except Failure Style
  | .error f => .error f
  | .ok run =>
    if !run.success then .error (run.classify command.display) else (Style.ofDump run.text).mapError .decode

/-- The style of a file with such dependencies, where the tool answers so to the command for the file. -/
def Style.ofKey (path : String) (dependencies : DependencyKey) (answer : String → Except Failure ToolOutput) :
    Except Failure Style :=
  if dependencies.configFiles.isEmpty then .error .notConfigured
  else match dependencies.tool with
    | none => .error .toolNotFound
    | some (tool, _) => Style.ofAnswer (Invocation.dumpConfig tool path false) (answer tool)

def Host.dump (h : Host) (number : Nat) (path tool : String) : Except Failure ToolOutput :=
  h.answer number ⟨h.placed path (Invocation.dumpConfig tool path false), none⟩

namespace StyleMemory

/-- Cancellations are not remembered, all other results are. -/
theorem styles_remember (path : String) (dependencies : DependencyKey) (result : Except Failure Style) :
    result = .error .cancelled ∧ (∀ m : StyleMemory, (m.remember path dependencies result).styles = m.styles) ∨
      result ≠ .error .cancelled ∧ ∀ m : StyleMemory,
        (m.remember path dependencies result).styles = m.styles.insert path (dependencies, result) := by
  unfold remember
  split
  · exact Or.inl ⟨rfl, fun _ => rfl⟩
  · rename_i f hf
    refine Or.inr ⟨fun h => ?_, fun _ => rfl⟩
    cases h
    exact hf rfl
  · refine Or.inr ⟨fun h => ?_, fun _ => rfl⟩
    cases h

end StyleMemory

namespace Engine

/-- A style follows from the answer of the tool, unless the token is cancelled. -/
theorem computeStyle_cases (path : String) (dependencies : DependencyKey) (t : Token) (e : Engine) :
    let computed := (computeStyle path dependencies t).run e
    computed.1 = .error .cancelled ∧ computed.2.desk.isCancelled t = true ∨
      computed.1 = Style.ofKey path dependencies (e.host.dump e.host.calls.size path) := by
  unfold computeStyle Style.ofKey
  dsimp only
  split
  · exact Or.inr rfl
  cases dependencies.tool with
  | none => exact Or.inr rfl
  | some found =>
    obtain ⟨tool, stamp⟩ := found
    have hcases := invoke_cases (e.host.placed path (Invocation.dumpConfig tool path false)) none t e
    have hplaced : (inDirectoryOf path (Invocation.dumpConfig tool path false)).run e =
        (e.host.placed path (Invocation.dumpConfig tool path false), e) := rfl
    dsimp only
    rw [Work.run_bind, hplaced, Work.run_bind]
    generalize (invoke (e.host.placed path (Invocation.dumpConfig tool path false)) none t).run e = answered at hcases ⊢
    obtain ⟨result, after⟩ := answered
    rcases hcases with ⟨hresult, hcancelled⟩ | ⟨hresult, -⟩
    · dsimp only at hresult
      subst hresult
      exact Or.inl ⟨rfl, hcancelled⟩
    · right
      rw [Host.dump, ← hresult]
      cases result with
      | error f => rfl
      | ok run =>
        dsimp only [Style.ofAnswer]
        split <;> rfl

/-- Calling the tool leaves what is remembered about styles alone. -/
theorem acrossCalls_styles : AcrossCalls fun e after => after.styles = e.styles where
  refl _ := rfl
  trans h h' := h'.trans h
  debug _ _ := rfl
  search _ _ := rfl
  call _ _ := rfl
  agenda _ _ := rfl

def keyNow (e : Engine) (path : String) : DependencyKey :=
  ⟨(e.styles.chains.configFiles e.host.files path).1.map fun c => (c, e.host.files.stamp? c),
    e.located.map fun p => (p, e.host.files.stamp? p), e.styles.generation⟩

theorem run_dependencyKey (path : String) (e : Engine) : ((dependencyKey path).run e).1 = e.keyNow path := by
  unfold dependencyKey
  rw [Work.run_bind, Work.run_bind, Work.run_bind, run_toolPath]
  have hstyles : (toolPath.run ((configFiles path).run e).2).2.styles = ((configFiles path).run e).2.styles :=
    acrossCalls_styles.moves_toolPath _
  have hgeneration : (toolPath.run ((configFiles path).run e).2).2.styles.generation = e.styles.generation :=
    (congrArg StyleMemory.generation hstyles).trans rfl
  exact congrArg (DependencyKey.mk _ _) hgeneration

theorem styles_dependencyKey (path : String) (e : Engine) :
    ((dependencyKey path).run e).2.styles = ((configFiles path).run e).2.styles := by
  unfold dependencyKey
  rw [Work.run_bind, Work.run_bind, Work.run_bind]
  exact acrossCalls_styles.moves_toolPath _

theorem acrossSearches_calls : AcrossSearches fun e after => after.host.calls = e.host.calls where
  refl _ := rfl
  trans h h' := h'.trans h
  debug e line := calls_debug e.host line
  search _ _ := rfl

theorem calls_dependencyKey (path : String) (e : Engine) :
    ((dependencyKey path).run e).2.host.calls = e.host.calls := by
  unfold dependencyKey
  rw [Work.run_bind, Work.run_bind, Work.run_bind]
  exact acrossSearches_calls.moves_toolPath _

theorem run_styleFor (path : String) (t : Token) (e : Engine) : (styleFor path t).run e =
    match e.styles.remembered? path (e.keyNow path) with
    | some result => (result, ((dependencyKey path).run e).2)
    | none =>
      let computed := (computeStyle path (e.keyNow path) t).run ((dependencyKey path).run e).2
      (computed.1, { computed.2 with styles := computed.2.styles.remember path (e.keyNow path) computed.1 }) := by
  have hstyles : ((dependencyKey path).run e).2.styles.styles = e.styles.styles :=
    (congrArg StyleMemory.styles (styles_dependencyKey path e)).trans rfl
  have hremembered : ((dependencyKey path).run e).2.styles.remembered? path (e.keyNow path) =
      e.styles.remembered? path (e.keyNow path) := by
    rw [StyleMemory.remembered?, hstyles, StyleMemory.remembered?]
  have hget (e : Engine) : (get : Work Engine).run e = (e, e) := rfl
  unfold styleFor
  rw [Work.run_bind, run_dependencyKey, Work.run_bind, hget]
  dsimp only
  rw [hremembered]
  cases e.styles.remembered? path (e.keyNow path) <;> rfl

/-- A request for a style uses the remembered result whose key holds, or asks the tool and remembers the
result. -/
theorem styleFor_cases (path : String) (t : Token) (e : Engine) :
    let asked := (styleFor path t).run e
    let dependencies := ((dependencyKey path).run e).1
    (e.styles.remembered? path dependencies = some asked.1 ∧ asked.2.styles.styles = e.styles.styles ∧
      asked.2.host.calls = e.host.calls) ∨
    e.styles.remembered? path dependencies = none ∧
      asked.2.styles.styles = (e.styles.remember path dependencies asked.1).styles ∧
      (asked.1 = .error .cancelled ∧ asked.2.desk.isCancelled t = true ∨
        asked.1 = Style.ofKey path dependencies (e.host.dump e.host.calls.size path)) := by
  have hprogress := acrossRequests_progress.moves_dependencyKey path e
  have hcalls := calls_dependencyKey path e
  have hstyles : ((dependencyKey path).run e).2.styles.styles = e.styles.styles :=
    (congrArg StyleMemory.styles (styles_dependencyKey path e)).trans rfl
  dsimp only
  rw [run_styleFor, run_dependencyKey]
  generalize ((dependencyKey path).run e).2 = mid at *
  have hdump : mid.host.dump mid.host.calls.size path = e.host.dump e.host.calls.size path := by
    funext tool
    rw [Host.dump, Host.dump, hprogress.answer, hprogress.placed, hcalls]
  split
  · rename_i result hresult
    exact Or.inl ⟨hresult, hstyles, hcalls⟩
  · rename_i hnone
    have hcomputed := computeStyle_cases path (e.keyNow path) t mid
    have hkept : ((computeStyle path (e.keyNow path) t).run mid).2.styles = mid.styles :=
      acrossCalls_styles.moves_computeStyle path (e.keyNow path) t mid
    dsimp only at hcomputed ⊢
    rw [hdump] at hcomputed
    generalize (computeStyle path (e.keyNow path) t).run mid = computed at hcomputed hkept ⊢
    obtain ⟨result, after⟩ := computed
    have hresult : (after.styles.remember path (e.keyNow path) result).styles =
        (e.styles.remember path (e.keyNow path) result).styles := by
      rcases StyleMemory.styles_remember path (e.keyNow path) result with ⟨-, h⟩ | ⟨-, h⟩
      · rw [h, h, hkept, hstyles]
      · rw [h, h, hkept, hstyles]
    exact Or.inr ⟨hnone, hresult, hcomputed⟩

end Engine
end Restyle
