import Restyle.Proofs.Format.Course

/-! # Stages in the log

That a file has reached a stage is logged as a line with the name of the stage and the file.  No other line that a
request logs reads so: the first two letters tell the names of stages apart, also from the start of every other line.
-/
namespace Restyle
open Work

namespace Stage

def all : List Stage := [styleCheck, resolving, invoking, decoding, locating, applying, done]

theorem mem_all (s : Stage) : s ∈ all := by cases s <;> decide

def line (s : Stage) (file : String) : String := "[DEBUG] " ++ (s.name ++ ": " ++ file)

def ofLine? (file logLine : String) : Option Stage := all.find? fun s => logLine = s.line file

def isOther (line : String) : Bool :=
  match line.toList with
  | c :: d :: _ => all.all fun s => s.name.toList.take 2 ≠ [c, d]
  | _ => false

@[simp] theorem isOther_append {line : String} (rest : String) (h : isOther line = true) :
    isOther (line ++ rest) = true := by
  unfold isOther at h ⊢
  rw [String.toList_append]
  split at h
  · rename_i c d cs hline
    rw [hline]
    exact h
  · cases h

theorem two_le_name (s : Stage) : 2 ≤ s.name.toList.length := by cases s <;> decide

theorem eq_of_letters {s other : Stage} (h : s.name.toList.take 2 = other.name.toList.take 2) : s = other := by
  have hapart : ∀ s ∈ all, ∀ other ∈ all, s.name.toList.take 2 = other.name.toList.take 2 → s = other := by decide
  exact hapart s s.mem_all other other.mem_all h

theorem toList_line (s : Stage) (file : String) : (s.line file).toList =
    "[DEBUG] ".toList ++ (s.name.toList ++ ": ".toList ++ file.toList) := by
  simp only [line, String.toList_append]

theorem ofLine?_of_isOther {line : String} (file : String) (h : isOther line = true) :
    ofLine? file ("[DEBUG] " ++ line) = none := by
  unfold isOther at h
  split at h
  · rename_i c d cs hline
    refine List.find?_eq_none.mpr fun s hs hsame => ?_
    -- Every name has two letters at least, so the line would begin with those of this one.
    have hletters := List.all_eq_true.mp h s hs
    have hsame := congrArg String.toList (of_decide_eq_true hsame)
    rw [toList_line, String.toList_append, List.append_cancel_left_eq, hline, List.append_assoc] at hsame
    have htake := congrArg (List.take 2) hsame
    rw [List.take_append_of_le_length s.two_le_name] at htake
    exact absurd htake.symm (of_decide_eq_true hletters)
  · cases h

theorem ofLine?_line (s : Stage) (file : String) : ofLine? file (s.line file) = some s := by
  cases hfound : ofLine? file (s.line file) with
  | none =>
    have hnone := List.find?_eq_none.mp hfound s s.mem_all
    simp at hnone
  | some other =>
    have hsame := List.find?_some hfound
    have hline := congrArg String.toList (of_decide_eq_true hsame)
    rw [toList_line, toList_line, List.append_cancel_left_eq, List.append_assoc, List.append_assoc] at hline
    have htake := congrArg (List.take 2) hline
    rw [List.take_append_of_le_length s.two_le_name, List.take_append_of_le_length other.two_le_name] at htake
    rw [eq_of_letters htake]

theorem ofLine?_error (file line : String) : ofLine? file (errorWord ++ " " ++ line) = none := by
  refine List.find?_eq_none.mpr fun s _ hsame => ?_
  have hsame := congrArg String.toList (of_decide_eq_true hsame)
  have hhead := congrArg List.head? hsame
  rw [toList_line, String.toList_append, String.toList_append] at hhead
  simp [errorWord] at hhead

end Stage

namespace Engine

def logged (file : String) (e : Engine) : LogLevel × List Stage :=
  (e.host.logLevel, e.host.err.toList.filterMap (Stage.ofLine? file))

variable {file : String} {e : Engine}

theorem logged_stage (file : String) (h : e.host.logLevel = .debug) (s : Stage) :
    logged file ((stage s file).run e).2 = (.debug, (logged file e).2 ++ [s]) := by
  have hline : "[DEBUG] " ++ s!"{s.name}: {file}" = s.line file := rfl
  have hrun : ((stage s file).run e).2 = { e with host := e.host.printError (s.line file) } := by
    rw [← hline]
    change { e with host := e.host.debug s!"{s.name}: {file}" } = _
    rw [Host.debug, h]
    rfl
  rw [hrun]
  simp [logged, Host.printError, h, Stage.ofLine?_line]

theorem logs_debug {line : String} (h : Stage.isOther line = true) : Keeps (logged file) (debug line) := by
  refine Keeps.modify fun e => ?_
  rw [Host.debug]
  split
  · simp [logged, Host.printError, Stage.ofLine?_of_isOther file h]
  · rfl

theorem logs_error (line : String) : Keeps (logged file) (error line) := by
  refine Keeps.modify fun e => ?_
  rw [Host.error]
  split
  · simp [logged, Host.printError, Stage.ofLine?_error]
  · rfl

theorem logs_announce (events : List NoticeEvent) : Keeps (logged file) (announce events) := by
  unfold announce
  refine Keeps.bind (Keeps.modify fun e => rfl) fun _ => Keeps.bind Keeps.get fun e => ?_
  split
  · refine Keeps.forM (fun event => ?_) events
    cases event with
    | shown n => exact logs_error n.line
    | expired n => exact logs_debug (Stage.isOther_append _ (Stage.isOther_append _ (by decide)))
  · exact Keeps.pure _

theorem logs_clearNotice : Keeps (logged file) clearNotice := by
  unfold clearNotice
  refine Keeps.bind Keeps.get fun e => ?_
  exact Keeps.bind (Keeps.modify fun e => rfl) fun _ => logs_announce _

theorem logs_notify (other : String) (f : Failure) : Keeps (logged file) (notify other f) := by
  unfold notify
  refine Keeps.bind Keeps.get fun e => ?_
  exact Keeps.bind (Keeps.modify fun e => rfl) fun _ => Keeps.bind (logs_announce _) fun _ => Keeps.pure _

theorem logs_report (other : String) (result : Except Failure Outcome) : Keeps (logged file) (report other result) := by
  unfold report
  split
  · exact Keeps.pure _
  · exact Keeps.bind (logs_debug (Stage.isOther_append _ (Stage.isOther_append _ (by decide)))) fun _ => Keeps.pure _
  · exact Keeps.pure _
  · exact Keeps.pure _
  · refine Keeps.bind (logs_debug ?_) fun _ => Keeps.bind (logs_notify other _) fun _ => Keeps.pure _
    exact Stage.isOther_append _ (Stage.isOther_append _ (Stage.isOther_append _ (by decide)))

/-! ### Looking for the tool and calling it -/

theorem logs_toolPath : Keeps (logged file) toolPath := by
  have hfind : Keeps (logged file) findByName := by
    intro e
    unfold findByName
    rw [Work.run_bind]
    dsimp only
    split
    · rfl
    · rw [Work.run_bind]
      split
      · exact Keeps.bind (logs_debug (Stage.isOther_append _ (by decide))) (fun _ => Keeps.pure _) e.searched
      · rfl
  unfold toolPath
  refine Keeps.bind Keeps.get fun e => ?_
  split
  · exact hfind
  · refine Keeps.bind (fun _ => rfl) fun path => Keeps.bind Keeps.get fun e => ?_
    split
    · exact Keeps.pure _
    · exact Keeps.bind (logs_debug (Stage.isOther_append _ (by decide))) fun _ => Keeps.pure _

theorem logs_call (c : Invocation) (input : Option (List UInt8)) (t : Token) : Keeps (logged file) (call c input t) := by
  unfold call
  refine Keeps.bind (fun _ => rfl) fun cancelled => ?_
  split
  · exact Keeps.pure _
  refine Keeps.bind Keeps.get fun e => Keeps.bind (Keeps.modify fun e => rfl) fun _ => ?_
  split
  · exact Keeps.pure _
  dsimp only
  split
  · refine Keeps.bind (fun _ => rfl) fun _ => Keeps.bind (fun _ => rfl) fun cancelled => ?_
    split <;> exact Keeps.pure _
  · exact Keeps.pure _

theorem logs_invoke (c : Invocation) (input : Option (List UInt8)) (t : Token) :
    Keeps (logged file) (invoke c input t) := by
  unfold invoke
  refine Keeps.bind (logs_debug (Stage.isOther_append _ (by decide))) fun _ =>
    Keeps.bind (logs_call c input t) fun result => ?_
  split
  · exact Keeps.bind (logs_debug (Stage.isOther_append _ (Stage.isOther_append _ (by decide)))) fun _ => Keeps.pure _
  · exact Keeps.bind (logs_debug (Stage.isOther_append _ (by decide))) fun _ => Keeps.pure _

theorem logs_dependencyKey (path : String) : Keeps (logged file) (dependencyKey path) := by
  unfold dependencyKey
  refine Keeps.bind (fun _ => rfl) fun _ => Keeps.bind Keeps.get fun _ => ?_
  exact Keeps.bind logs_toolPath fun _ => Keeps.bind Keeps.get fun _ => Keeps.pure _

theorem logs_computeStyle (path : String) (dependencies : DependencyKey) (t : Token) :
    Keeps (logged file) (computeStyle path dependencies t) := by
  unfold computeStyle
  split
  · exact Keeps.pure _
  split
  · exact Keeps.pure _
  refine Keeps.bind (fun _ => rfl) fun command => Keeps.bind (logs_invoke command none t) fun result => ?_
  split
  · exact Keeps.pure _
  · split <;> exact Keeps.pure _

theorem logs_styleFor (path : String) (t : Token) : Keeps (logged file) (styleFor path t) := by
  unfold styleFor
  refine Keeps.bind (logs_dependencyKey path) fun dependencies => Keeps.bind Keeps.get fun e => ?_
  split
  · exact Keeps.pure _
  · refine Keeps.bind (logs_computeStyle path dependencies t) fun result => ?_
    exact Keeps.bind (Keeps.modify fun e => rfl) fun _ => Keeps.pure _

/-- What is logged while it is found out why a file is not formatted names no stage. -/
theorem logs_reason? (other : String) (t : Token) : Keeps (logged file) (reason? other t) := by
  unfold reason?
  refine Keeps.bind Keeps.get fun e => ?_
  split
  · exact Keeps.pure _
  split
  · exact Keeps.pure _
  refine Keeps.bind (fun _ => rfl) fun configured => ?_
  split
  · exact Keeps.pure _
  refine Keeps.bind (logs_styleFor other t) fun result => ?_
  split
  · split <;> exact Keeps.pure _
  all_goals exact Keeps.pure _

end Engine
end Restyle
