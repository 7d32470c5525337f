import Restyle.Proofs.Style.Repeat

/-! # Why files are not formatted

A request looks at the settings, at the name of the file, at its chain and then at its style, in this
order, and no further than to the first reason that it finds.
-/
namespace Restyle
open Work

def Reason.ofStyle (file : String) : Except Failure Style → Except Failure (Option Reason)
  | .ok s => if s.language? = some "Cpp" && !isCppFile file then .ok (some (.languageMismatch "Cpp")) else .ok none
  | .error .notConfigured => .ok (some .notConfigured)
  | .error (.unsupportedLanguage message) => .ok (some (.unsupportedLanguage message))
  | .error f => .error f

theorem Reason.eq_ok_of_ofStyle {file : String} {result : Except Failure Style}
    (h : Reason.ofStyle file result = .ok none) : ∃ style, result = .ok style := by
  unfold ofStyle at h
  split at h
  · exact ⟨_, rfl⟩
  · cases h
  · cases h
  · cases h

namespace Engine

theorem run_reason? (file : String) (t : Token) (e : Engine) : (reason? file t).run e =
    if e.settings.enabled = false then (.ok (some .disabled), e)
    else if isConfigFile file = true then (.ok (some .configurationFile), e)
    else if ((configFiles file).run e).1.isEmpty = true then (.ok (some .notConfigured), ((configFiles file).run e).2)
    else (Reason.ofStyle file ((styleFor file t).run e).1, ((styleFor file t).run e).2) := by
  have hget : (get : Work Engine).run e = (e, e) := rfl
  have hconfigured : (isConfigured file).run e =
      (!((configFiles file).run e).1.isEmpty, ((configFiles file).run e).2) := rfl
  unfold reason?
  rw [Work.run_bind, hget]
  dsimp only
  cases henabled : e.settings.enabled with
  | false => rfl
  | true =>
    cases hfile : isConfigFile file with
    | true => rfl
    | false =>
      simp only [Bool.not_true, Bool.false_eq_true, if_false, Bool.true_eq_false]
      rw [Work.run_bind, hconfigured]
      dsimp only
      cases hchain : ((configFiles file).run e).1.isEmpty with
      | true => rfl
      | false =>
        simp only [Bool.not_false, Bool.not_true, Bool.false_eq_true, if_false]
        rw [Work.run_bind, run_styleFor_configFiles]
        cases ((styleFor file t).run e).1 with
        | ok s =>
          dsimp only [Reason.ofStyle]
          split <;> rfl
        | error f => cases f <;> rfl

def permits (ifBroken : Bool) : Except Failure (Option Reason) → Bool
  | .ok reason => reason.isNone
  | .error f => f.isValidation && ifBroken

theorem run_isFormattable (file : String) (ifBroken : Bool) (t : Token) (e : Engine) :
    (isFormattable file ifBroken t).run e =
      (permits ifBroken ((reason? file t).run e).1, ((reason? file t).run e).2) := by
  unfold isFormattable
  rw [Work.run_bind]
  cases ((reason? file t).run e).1 <;> rfl

end Engine
end Restyle
